import OpenShapeForge.Formula.Functions

/-! Syntax tree to canonical AST: binds every field reference to a stable id,
derives the result type and refuses what may not be saved
(packages/formula/src/check.ts). -/

namespace OpenShapeForge.Formula.Check
open Js Types Tokens SyntaxTree Functions Canonical.Comparison

def defaultFormulaDepth : Nat := 5

structure CheckOptions where
  /-- The field this formula defines; reading it is a cycle. -/
  fieldId : Option Text
  formulaDepth : Option Nat

structure CheckResult (N : Type) where
  ast : Option (Ast N)
  resultType : Option FormulaType
  errors : List FormulaDiagnostic
  dependencies : List FormulaFieldRef
  depth : Option Nat

def ordinal (index : Nat) : Text :=
  match index with
  | 0 => js "1st"
  | 1 => js "2nd"
  | 2 => js "3rd"
  | index => decimal (index + 1) ++ js "th"

def arithmetic : BinaryOperator → Option FormulaOperator
  | .add => some .add
  | .sub => some .sub
  | .mul => some .mul
  | .div => some .div
  | _ => none

/-- `equals` also stands where the operator compares nothing; those never ask. -/
def comparisonOperator : BinaryOperator → ConditionOperator
  | .notEqual => .notEquals
  | .less => .lessThan
  | .greater => .greaterThan
  | .lessEqual => .lessThanOrEquals
  | .greaterEqual => .greaterThanOrEquals
  | _ => .equals

def unwrap {N : Type} : SyntaxNode N → SyntaxNode N
  | .paren inner _ => unwrap inner
  | node => node

def isBlankCall {N : Type} (node : SyntaxNode N) : Bool :=
  match unwrap node with
  | .call name _ [] _ => name = js "BLANK"
  | _ => false

def listTypes (types : List FormulaType) : Text :=
  match types.map FormulaType.name with
  | [] => []
  | [single] => single
  | names => join (js ", ") names.dropLast ++ js " or " ++ names.getLast?.getD []

def joinTypes (types : List FormulaType) : Text := join (js "|") (types.map FormulaType.name)

/-- The fields a name designates: the first tier with a match decides. Inside
braces an exact label comes first, bare a key, and last either in any case. -/
def resolve [Unicode] (fields : List FormulaField) (name : Text) (braced : Bool) : List FormulaField :=
  let byLabel := fields.filter fun field => field.label = name
  let byKey := fields.filter fun field => field.key = name
  let folded := Unicode.toLocaleLowerCase (trim name)
  let loose := fields.filter fun field =>
    Unicode.toLocaleLowerCase (trim field.label) = folded || Unicode.toLocaleLowerCase field.key = folded
  let first := if braced then byLabel else byKey
  let second := if braced then byKey else byLabel
  if first ≠ [] then first else if second ≠ [] then second else loose

def inScope (relation : Option Text) (field : FormulaField) : Bool :=
  match relation with
  | some name => field.scope = .relation name
  | none => field.scope = .self

section Checker
variable {N : Type} [JsNumber N] [Unicode] (env : FormulaEnvironment)

def report (code : FormulaDiagnosticCode) (message : Text) (span : Span) (params : List (Text × Param)) : Report Unit :=
  ⟨(), [⟨code, message, span, params⟩], []⟩

def readField (field : FormulaField) (span : Span) : Report Unit := ⟨(), [], [⟨field, span⟩]⟩

def invalid (node : SyntaxNode N) : Checked N := ⟨.invalid, .literal .null, node⟩

def refusal (field : FormulaField) : Option (FormulaDiagnosticCode × Text × List (Text × Param)) :=
  let named := js "'" ++ field.label ++ js "' is "
  if field.classified then
    some (.classifiedField, named ++ js "classified; a formula may not read it, because its result would reveal the value",
      [(js "field", .text field.label)])
  else if field.outOfScope.getD [] ≠ [] then
    some (.outOfScope, named ++ js "out of a formula's reach: " ++ field.outOfScope.getD [], [(js "field", .text field.label)])
  else
    match field.type with
    | .formula _ => none
    | .other type =>
      some (.unsupportedFieldType,
        named ++ js "a " ++ type ++ js " field, which a formula cannot read; use a lookup or rollup for related records",
        [(js "field", .text field.label), (js "type", .text type)])

def readableType (field : FormulaField) : ValueType :=
  match field.type with
  | .formula type => .formula type
  | .other _ => .invalid

def checkDesignated (node : SyntaxNode N) (display : Text) : List FormulaField → Report (Checked N)
  | [] => do
    report .unknownField (js "There is no field '" ++ display ++ js "'") node.span [(js "name", .text display)]
    return invalid node
  | [field] =>
    match refusal field with
    | some (code, message, params) => do
      report code message node.span params
      return ⟨.invalid, .path (fieldPath field), node⟩
    | none => do
      readField field node.span
      return ⟨readableType field, .path (fieldPath field), node⟩
  | fields => do
    report .ambiguousField (js "'" ++ display ++ js "' names " ++ decimal fields.length ++
      js " fields; use the field's key instead") node.span
      [(js "name", .text display), (js "count", .number fields.length)]
    return invalid node

def checkField (node : SyntaxNode N) (name : Text) (braced : Bool) (relation : Option Relation) : Report (Checked N) :=
  let candidates := env.filter (inScope (relation.map Relation.name))
  match relation, candidates with
  | some relation, [] => do
    report .outOfScope (js "'" ++ relation.name ++ js "' is not an owned single child of this record; " ++
      js "reach other records with a lookup or rollup") relation.span [(js "relation", .text relation.name)]
    return invalid node
  | some relation, candidates =>
    checkDesignated node (relation.name ++ js "." ++ name) (resolve candidates name braced)
  | none, candidates => checkDesignated node name (resolve candidates name braced)

/-- Reports a mismatch unless the operand is of one of the types; blank and invalid always pass. -/
def expectOperand (checked : Checked N) (allowed : List FormulaType) (operator side hint : Text) : Report Bool :=
  match checked.type with
  | .blank | .invalid => .done true
  | .formula type =>
    if type ∈ allowed then .done true
    else do
      report .typeMismatch
        (operator ++ js " needs " ++ listTypes allowed ++ js "; the " ++ side ++ js " is " ++ type.name ++ hint)
        checked.syntaxNode.span
        [(js "operator", .text operator), (js "side", .text side), (js "expected", .text (joinTypes allowed)),
          (js "actual", .text type.name)]
      return false

def expectConcatenable (checked : Checked N) (side : Text) : Report Unit :=
  if checked.type = .formula .date ∨ checked.type = .formula .timestamp then
    report .typeMismatch (js "'&' joins text, numbers and booleans; the " ++ side ++ js " side is a " ++ checked.type.name ++
      js ", so format it with DATETIME_FORMAT() first") checked.syntaxNode.span
      [(js "operator", .text (js "&")), (js "side", .text side), (js "actual", .text checked.type.name)]
  else .done ()

def typeOr (type : ValueType) (fallback : FormulaType) : ValueType :=
  if type = .invalid then .invalid else .formula fallback

def checkUnary (node : SyntaxNode N) (operator : Sign) (operandNode : SyntaxNode N) (operand : Checked N) :
    Report (Checked N) := do
  let _ ← expectOperand operand [.number] (js "unary '" ++ operator.symbol ++ js "'") (js "operand") []
  match operator with
  | .plus => return ⟨typeOr operand.type .number, operand.ast, node⟩
  | .minus =>
    match unwrap operandNode with
    | .number value _ => return ⟨.formula .number, .literal (.number (JsNumber.neg value)), node⟩
    | _ => return ⟨typeOr operand.type .number, .formula .negate [operand.ast], node⟩

/-- `=` and `!=` against BLANK() test for an empty value. -/
def blankTest (node : SyntaxNode N) (operator : BinaryOperator) (subject : Checked N) : Checked N :=
  ⟨if subject.type = .invalid then .invalid else .formula .boolean,
    .rule (if operator = .equal then .isEmpty else .isNotEmpty) subject.ast .undefined, node⟩

def quoted (operator : BinaryOperator) : Text := js "'" ++ operator.symbol ++ js "'"

def isOrdered : ValueType → Bool
  | .formula .text | .formula .boolean => false
  | _ => true

def expectOrdered (operator : BinaryOperator) (side : Text) (checked : Checked N) : Report Bool :=
  if isOrdered checked.type then .done true
  else do
    report .typeMismatch (quoted operator ++ js " compares numbers or dates; the " ++ side ++ js " is " ++ checked.type.name)
      checked.syntaxNode.span
      [(js "operator", .text operator.symbol), (js "side", .text side), (js "actual", .text checked.type.name)]
    return false

def isOrdering (operator : BinaryOperator) : Bool := operator ≠ .equal && operator ≠ .notEqual

def expectSide (operator : BinaryOperator) (side : Text) (checked : Checked N) : Report Bool :=
  if isOrdering operator then expectOrdered operator side checked else .done true

def checkComparison (node : SyntaxNode N) (operator : BinaryOperator) (left right : Checked N) : Report (Checked N) := do
  let okLeft ← expectSide operator (js "left side") left
  let okRight ← expectSide operator (js "right side") right
  let message := quoted operator ++ js " cannot compare " ++ left.type.name ++ js " with " ++ right.type.name
  let params := [(js "operator", .text operator.symbol), (js "left", .text left.type.name),
    (js "right", .text right.type.name)]
  let compared := comparable left.type right.type
  (if okLeft && okRight && !compared then report .typeMismatch message node.span params else Report.done ())
  let failed := left.type = .invalid ∨ right.type = .invalid
  return ⟨if failed ∨ !(okLeft && okRight && compared) then .invalid else .formula .boolean,
    .rule (comparisonOperator operator) left.ast right.ast, node⟩

def checkConcat (node : SyntaxNode N) (left right : Checked N) : Report (Checked N) := do
  expectConcatenable left (js "left")
  expectConcatenable right (js "right")
  let failed := left.type = .invalid ∨ right.type = .invalid
  return ⟨if failed then .invalid else .formula .text, .formula .concat [left.ast, right.ast], node⟩

def checkArithmetic (node : SyntaxNode N) (operator : BinaryOperator) (op : FormulaOperator) (left right : Checked N) :
    Report (Checked N) := do
  let hint := if operator = .add then js " (join text with &)" else []
  let okLeft ← expectOperand left [.number] (quoted operator) (js "left side") hint
  let okRight ← expectOperand right [.number] (quoted operator) (js "right side") hint
  let failed := left.type = .invalid ∨ right.type = .invalid
  return ⟨if failed ∨ !okLeft ∨ !okRight then .invalid else .formula .number, .formula op [left.ast, right.ast], node⟩

def checkBinary (node : SyntaxNode N) (operator : BinaryOperator) (left right : Checked N) : Report (Checked N) :=
  match operator, arithmetic operator with
  | .concat, _ => checkConcat node left right
  | operator, some op => checkArithmetic node operator op left right
  | operator, none => checkComparison node operator left right

/-- What `unify` has seen so far: the first typed branch, and whether one failed. -/
structure Unified where
  expected : Option (FormulaType × Text × Nat)
  failed : Bool

def unifyFrom (name : Text) : Nat → Unified → List (Checked N × Text) → Report Unified
  | _, seen, [] => .done seen
  | index, seen, (checked, label) :: rest =>
    match checked.type, seen.expected with
    | .invalid, _ => unifyFrom name (index + 1) { seen with failed := true } rest
    | .blank, _ => unifyFrom name (index + 1) seen rest
    | .formula type, none => unifyFrom name (index + 1) { seen with expected := some (type, label, index + 1) } rest
    | .formula type, some (expected, expectedLabel, branch) =>
      if type = expected then unifyFrom name (index + 1) seen rest
      else do
        report .mixedBranches
          (name ++ js "() branch " ++ decimal (index + 1) ++ js " (" ++ label ++ js ") is " ++ type.name ++
            js ", but branch " ++ decimal branch ++ js " (" ++ expectedLabel ++ js ") is " ++ expected.name ++
            js "; every branch must give the same type") checked.syntaxNode.span
          [(js "function", .text name), (js "branch", .number (index + 1)), (js "type", .text type.name),
            (js "expectedBranch", .number branch), (js "expected", .text expected.name)]
        unifyFrom name (index + 1) { seen with failed := true } rest

def unify (name : Text) (branches : List (Checked N × Text)) : Report ValueType := do
  let seen ← unifyFrom name 0 ⟨none, false⟩ branches
  if seen.failed then return .invalid
  else
    match seen.expected with
    | some (type, _, _) => return .formula type
    | none => return .blank

def unitLiteral (node : SyntaxNode N) : Option DateUnit :=
  match unwrap node with
  | .string value _ => dateUnitOf value
  | _ => none

def checkUnit (name : Text) (args : List (Checked N)) (index : Nat) (fallback : Option DateUnit) :
    Report (Option DateUnit) :=
  match args[index]? with
  | none => .done fallback
  | some arg =>
    match unitLiteral arg.syntaxNode with
    | some found => .done (some found)
    | none => do
      report .invalidArgument (name ++ js "() needs a unit in quotes as its " ++ ordinal index ++ js " argument: " ++
        join (js ", ") (dateUnits.map fun unit => js "'" ++ unit.name ++ js "'")) arg.syntaxNode.span
        [(js "function", .text name), (js "argument", .number (index + 1))]
      return none

def expectArgument (name : Text) (args : List (Checked N)) (index : Nat) (allowed : List FormulaType) : Report Unit :=
  match args[index]? with
  | none => .done ()
  | some arg =>
    match arg.type with
    | .blank | .invalid => .done ()
    | .formula type =>
      if type ∈ allowed then .done ()
      else report .typeMismatch (name ++ js "() needs " ++ listTypes allowed ++ js " as its " ++ ordinal index ++
        js " argument, not " ++ type.name) arg.syntaxNode.span
        [(js "function", .text name), (js "argument", .number (index + 1)), (js "expected", .text (joinTypes allowed)),
          (js "actual", .text type.name)]

def callContext (name : Text) (args : List (Checked N)) : CallContext N where
  args
  report
  expect := expectArgument name args
  unify := unify name
  dateUnit := checkUnit name args

/-- `3`, `at least 3` or `1 to 3`. -/
def expectedCount (function : FormulaFunction) : Text :=
  match function.maxArgs with
  | none => js "at least " ++ decimal function.minArgs
  | some maxArgs =>
    if maxArgs = function.minArgs then decimal function.minArgs
    else decimal function.minArgs ++ js " to " ++ decimal maxArgs

def takesCount (function : FormulaFunction) (count : Nat) : Bool :=
  decide (function.minArgs ≤ count) && !exceeds count function.maxArgs

def checkKnownCall (node : SyntaxNode N) (name : Text) (function : FormulaFunction) (args : List (Checked N)) :
    Report (Checked N) :=
  if takesCount function args.length then
    let lowered := lower function.lowering (callContext name args)
    let failed := lowered.errors ≠ [] ∨ ∃ arg ∈ args, arg.type = .invalid
    ⟨⟨if failed then .invalid else lowered.value.1, lowered.value.2, node⟩, lowered.errors, lowered.references⟩
  else do
    let expected := expectedCount function
    let plural := if expected = js "1" then [] else js "s"
    report .argumentCount (function.name ++ js "() takes " ++ expected ++ js " argument" ++ plural ++ js ", not " ++
      decimal args.length ++ js ": " ++ function.signature) node.span
      [(js "function", .text function.name), (js "expected", .text expected), (js "actual", .number args.length)]
    return invalid node

mutual
def check (node : SyntaxNode N) : Report (Checked N) :=
  match node with
  | .number value span => .done ⟨.formula .number, .literal (.number value), .number value span⟩
  | .string value span => .done ⟨.formula .text, .literal (.text value), .string value span⟩
  | .boolean value span => .done ⟨.formula .boolean, .literal (.boolean value), .boolean value span⟩
  | .paren inner span => do
    let checked ← check inner
    return { checked with syntaxNode := .paren inner span }
  | .field name braced relation span => checkField env (.field name braced relation span) name braced relation
  | .unary operator operand span => do
    let checked ← check operand
    checkUnary (.unary operator operand span) operator operand checked
  | .binary operator operatorStart left right span =>
    if isOrdering operator = false ∧ (isBlankCall left ∨ isBlankCall right) then do
      let subject ← if isBlankCall right then check left else check right
      return blankTest (.binary operator operatorStart left right span) operator subject
    else do
      let checkedLeft ← check left
      let checkedRight ← check right
      checkBinary (.binary operator operatorStart left right span) operator checkedLeft checkedRight
  | .call name nameEnd args span =>
    if name ∈ timeFunctions then do
      report .timeFunction (name ++ js "() changes with time, so its value cannot be stored; " ++
        js "time-dependent formulas are not supported") span [(js "function", .text name)]
      let _ ← checkAll args
      return invalid (.call name nameEnd args span)
    else
      match formulaFunction name with
      | none => do
        report .unknownFunction (js "There is no function " ++ name ++ js "()") ⟨span.start, nameEnd⟩
          [(js "function", .text name)]
        let _ ← checkAll args
        return invalid (.call name nameEnd args span)
      | some function => do
        let checked ← checkAll args
        checkKnownCall (.call name nameEnd args span) name function checked

def checkAll : List (SyntaxNode N) → Report (List (Checked N))
  | [] => .done []
  | arg :: rest => do
    let first ← check arg
    let others ← checkAll rest
    return first :: others
end

end Checker

/-- How many formulas deep a field is. A field met again on the way counts once;
as many units of fuel as there are fields suffice. -/
def fieldDepth (env : FormulaEnvironment) : Nat → List Text → FormulaField → Nat
  | 0, _, _ => 1
  | fuel + 1, visiting, field =>
    if !isComputedField field then 0
    else
      match field.depth with
      | some depth => depth
      | none =>
        if fieldPath field ∈ visiting ∨ field.dependencies = [] then 1
        else
          let targets := field.dependencies.filterMap fun dependency => env.find? fun candidate =>
            candidate.id = dependency.id && scopeKey candidate.scope = scopeKey dependency.scope
          (targets.map (fieldDepth env fuel (fieldPath field :: visiting))).foldl max 0 + 1

def ownNode (id : Text) : Graph.DependencyNode := ⟨[], id⟩

def labelOf (env : FormulaEnvironment) (id : Text) : Text :=
  match env.find? fun field => field.scope = .self && field.id = id with
  | some field => field.label
  | none => id

/-- The reads within the record, with `fieldId`'s own replaced by `reads`. -/
def cycleDefinitions (env : FormulaEnvironment) (fieldId : Text) (reads : List Reference) :
    List Graph.DependencyDefinition :=
  ((env.filter fun field => field.scope = .self && field.id ≠ fieldId && field.dependencies ≠ []).map fun field =>
    ⟨ownNode field.id, ((field.dependencies.filter fun ref => ref.scope = .self).map fun ref => ownNode ref.id)⟩) ++
  [⟨ownNode fieldId, reads.map fun reference => ownNode reference.field.id⟩]

def cycleChain (env : FormulaEnvironment) (fieldId : Text) (references : List Reference) :
    Option (Reference × List Graph.DependencyNode) :=
  let reads := references.filter fun reference => reference.field.scope = .self
  let graph := Graph.buildDependencyGraph (cycleDefinitions env fieldId reads)
  reads.findSome? fun reference =>
    if reference.field.id = fieldId then some (reference, [ownNode fieldId])
    else (graph.path (ownNode reference.field.id) (ownNode fieldId)).map fun chain => (reference, chain)

def cycleErrors (env : FormulaEnvironment) (fieldId : Text) (references : List Reference) : List FormulaDiagnostic :=
  match cycleChain env fieldId references with
  | none => []
  | some (reference, chain) =>
    let names := join (js " " ++ [0x2192] ++ js " ") (labelOf env fieldId :: chain.map fun node => labelOf env node.field)
    [⟨.cycle, js "Circular reference: " ++ names, reference.span, [(js "path", .text names)]⟩]

def deepestReference (env : FormulaEnvironment) (references : List Reference) : Nat × Option Reference :=
  references.foldl (fun (depth, deepest) reference =>
    let own := fieldDepth env (env.length + 1) [] reference.field
    if depth < own + 1 then (own + 1, some reference) else (depth, deepest)) (1, none)

def depthErrors (env : FormulaEnvironment) (limit : Nat) (references : List Reference) : List FormulaDiagnostic :=
  match deepestReference env references with
  | (depth, some deepest) =>
    if limit < depth then
      [⟨.depthExceeded, js "This formula would be " ++ decimal depth ++ js " formulas deep through '" ++
        deepest.field.label ++ js "'; the limit is " ++ decimal limit, deepest.span,
        [(js "depth", .number depth), (js "limit", .number limit), (js "field", .text deepest.field.label)]⟩]
    else []
  | (_, none) => []

def sortDiagnostics (diagnostics : List FormulaDiagnostic) : List FormulaDiagnostic :=
  diagnostics.insertionSort fun a b =>
    a.span.start < b.span.start ∨ (a.span.start = b.span.start ∧ a.span.stop ≤ b.span.stop)

section CheckFormula
variable {N : Type} [JsNumber N] [Unicode]

def checkedDependencies (references : List Reference) : List FormulaFieldRef :=
  (references.foldl (fun (seen, found) reference =>
    if fieldPath reference.field ∈ seen then (seen, found)
    else (seen ++ [fieldPath reference.field], found ++ [⟨reference.field.id, reference.field.scope⟩]))
    (([], []) : List Text × List FormulaFieldRef)).2

def checkFormula (node : SyntaxNode N) (env : FormulaEnvironment) (options : CheckOptions) : CheckResult N :=
  let checked := check env node
  let limit := options.formulaDepth.getD defaultFormulaDepth
  let cycle := match options.fieldId with
    | some fieldId => cycleErrors env fieldId checked.references
    | none => []
  let errors := checked.errors ++ cycle ++ depthErrors env limit checked.references
  let undetermined := if errors = [] ∧ checked.value.type = .blank then
    [⟨.undeterminedType, js "This formula is always blank, so it has no type", node.span, []⟩] else []
  let dependencies := checkedDependencies checked.references
  match errors ++ undetermined, checked.value.type with
  | [], .formula type =>
    ⟨some checked.value.ast, some type, [], dependencies, some (deepestReference env checked.references).1⟩
  | errors, _ => ⟨none, none, sortDiagnostics errors, dependencies, none⟩

def analyze (text : Text) (env : FormulaEnvironment) (options : CheckOptions) : CheckResult N :=
  match parseFormula defaultLimits text with
  | .ok node => checkFormula node env options
  | .error (.failed diagnostic) => ⟨none, none, [diagnostic], [], none⟩
  | .error .exhausted => ⟨none, none, [], [], none⟩

end CheckFormula

end OpenShapeForge.Formula.Check
