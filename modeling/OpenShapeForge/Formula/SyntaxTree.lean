import OpenShapeForge.Formula.Tokens

/-! Tokens to syntax tree (packages/formula/src/syntax.ts). -/

namespace OpenShapeForge.Formula.SyntaxTree
open Js Types Tokens

inductive Sign where
  | minus | plus
deriving DecidableEq

def Sign.symbol : Sign → Text
  | minus => js "-"
  | plus => js "+"

/-- A field may be reached through a relation, which keeps its own span. -/
structure Relation where
  name : Text
  span : Span
deriving DecidableEq

inductive SyntaxNode (N : Type) where
  | number (value : N) (span : Span)
  | string (value : Text) (span : Span)
  | boolean (value : Bool) (span : Span)
  | field (name : Text) (braced : Bool) (relation : Option Relation) (span : Span)
  | call (name : Text) (nameEnd : Nat) (args : List (SyntaxNode N)) (span : Span)
  | unary (operator : Sign) (operand : SyntaxNode N) (span : Span)
  | binary (operator : BinaryOperator) (operatorStart : Nat) (left right : SyntaxNode N) (span : Span)
  | paren (inner : SyntaxNode N) (span : Span)

def SyntaxNode.span {N : Type} : SyntaxNode N → Span
  | number _ span | string _ span | boolean _ span | field _ _ _ span | call _ _ _ span | unary _ _ span
  | binary _ _ _ _ span | paren _ span => span

structure ParserLimits where
  maxLength : Option Nat
  maxNesting : Option Nat
  maxNodes : Option Nat

def defaultLimits : ParserLimits := ⟨some maxFormulaLength, some 64, some 500⟩

def noLimits : ParserLimits := ⟨none, none, none⟩

def exceeds (count : Nat) (limit : Option Nat) : Bool :=
  match limit with
  | some limit => decide (limit < count)
  | none => false

def limitText (limit : Option Nat) : Text := decimal (limit.getD 0)

structure ParserState (N : Type) where
  tokens : List (Token N)
  depth : Nat
  nodes : Nat

/-- `exhausted` is no outcome of the source: a run with fuel for every token never ends so. -/
inductive Stop where
  | failed (diagnostic : FormulaDiagnostic)
  | exhausted

abbrev Parse (N α : Type) := ParserState N → Except Stop (α × ParserState N)

section Steps
variable {N α : Type}

def finish (value : α) : Parse N α := fun state => .ok (value, state)

def andThen {β : Type} (first : Parse N α) (next : α → Parse N β) : Parse N β := fun state =>
  match first state with
  | .error stop => .error stop
  | .ok (value, state) => next value state

instance : Monad (Parse N) where
  pure := finish
  bind := andThen

def endToken : Token N := ⟨.eof, [], ⟨0, 0⟩⟩

def ParserState.head (state : ParserState N) : Token N := state.tokens.headD endToken

def peek : Parse N (Token N) := fun state => .ok (state.head, state)

/-- The end of the text is never passed. -/
def next : Parse N (Token N) := fun state =>
  match state.head.kind with
  | .eof => .ok (state.head, state)
  | _ => .ok (state.head, { state with tokens := state.tokens.tail })

def failWith (code : FormulaDiagnosticCode) (message : Text) (span : Span) : Parse N α := fun _ =>
  .error (.failed ⟨code, message, ⟨span.start, max span.stop span.start⟩, []⟩)

def fail (message : Text) (span : Span) : Parse N α := failWith .syntaxError message span

def count (limits : ParserLimits) (token : Token N) : Parse N Unit := fun state =>
  if exceeds (state.nodes + 1) limits.maxNodes then
    failWith .tooComplex (js "The formula has more than " ++ limitText limits.maxNodes ++ js " values and operators")
      token.span state
  else .ok ((), { state with nodes := state.nodes + 1 })

def enter (limits : ParserLimits) (token : Token N) : Parse N Unit := fun state =>
  if exceeds (state.depth + 1) limits.maxNesting then
    failWith .tooComplex (js "The formula nests deeper than " ++ limitText limits.maxNesting ++ js " levels")
      token.span state
  else .ok ((), { state with depth := state.depth + 1 })

def leave : Parse N Unit := fun state => .ok ((), { state with depth := state.depth - 1 })

def describe (token : Token N) : Text :=
  match token.kind with
  | .eof => js "the end of the formula"
  | _ => js "'" ++ token.text ++ js "'"

end Steps

section Grammar
variable {N : Type} [Unicode] (limits : ParserLimits)

def operatorOf (token : Token N) : Option BinaryOperator :=
  match token.kind with
  | .operator symbol => some symbol
  | _ => none

def isComparison : BinaryOperator → Bool
  | .equal | .notEqual | .less | .greater | .lessEqual | .greaterEqual => true
  | _ => false

def isConcatenation (operator : BinaryOperator) : Bool := operator = .concat

def isAdditive (operator : BinaryOperator) : Bool := operator = .add || operator = .sub

def isMultiplicative (operator : BinaryOperator) : Bool := operator = .mul || operator = .div

/-- The loop of `binaryLevel`, with what has been read so far on its left. -/
def binaryRest (operators : BinaryOperator → Bool) (operand : Parse N (SyntaxNode N)) :
    Nat → SyntaxNode N → Parse N (SyntaxNode N)
  | 0, _ => fun _ => .error .exhausted
  | fuel + 1, left => do
    let token ← peek
    match operatorOf token with
    | some operator =>
      if operators operator then do
        let _ ← next
        count limits token
        let right ← operand
        binaryRest operators operand fuel
          (.binary operator token.span.start left right ⟨left.span.start, right.span.stop⟩)
      else finish left
    | none => finish left

def binaryLevel (operators : BinaryOperator → Bool) (operand : Parse N (SyntaxNode N)) (fuel : Nat) :
    Parse N (SyntaxNode N) := do
  let left ← operand
  binaryRest limits operators operand fuel left

def multiplicative (unary : Parse N (SyntaxNode N)) (fuel : Nat) : Parse N (SyntaxNode N) :=
  binaryLevel limits isMultiplicative unary fuel

def additive (unary : Parse N (SyntaxNode N)) (fuel : Nat) : Parse N (SyntaxNode N) :=
  binaryLevel limits isAdditive (multiplicative limits unary fuel) fuel

def concatenation (unary : Parse N (SyntaxNode N)) (fuel : Nat) : Parse N (SyntaxNode N) :=
  binaryLevel limits isConcatenation (additive limits unary fuel) fuel

def comparison (unary : Parse N (SyntaxNode N)) (fuel : Nat) : Parse N (SyntaxNode N) :=
  binaryLevel limits isComparison (concatenation limits unary fuel) fuel

def isClosing (token : Token N) : Bool :=
  match token.kind with
  | .comma | .rparen => true
  | _ => false

/-- The arguments of a call after its open parenthesis, each after the ones in `args`. -/
def callArgs (expression : Parse N (SyntaxNode N)) : Nat → List (SyntaxNode N) → Parse N (List (SyntaxNode N))
  | 0, _ => fun _ => .error .exhausted
  | fuel + 1, args => do
    let token ← peek
    if isClosing token then
      fail (js "Expected an argument, found " ++ describe token) token.span
    else do
      let arg ← expression
      let token ← peek
      match token.kind with
      | .comma => do
        let _ ← next
        callArgs expression fuel (args ++ [arg])
      | _ => finish (args ++ [arg])

/-- None at all right before the closing parenthesis. -/
def arguments (expression : Parse N (SyntaxNode N)) (fuel : Nat) : Parse N (List (SyntaxNode N)) := do
  let token ← peek
  match token.kind with
  | .rparen => finish []
  | _ => callArgs expression fuel []

def call (expression : Parse N (SyntaxNode N)) (fuel : Nat) (name : Text) (nameToken : Token N) :
    Parse N (SyntaxNode N) := do
  let opening ← next
  enter limits opening
  let args ← arguments expression fuel
  let close ← next
  match close.kind with
  | .rparen => do
    leave
    return .call (Unicode.toUpperCase name) nameToken.span.stop args ⟨nameToken.span.start, close.span.stop⟩
  | _ => fail (js "Expected ',' or ')' in the call to " ++ nameToken.text ++ js ", found " ++ describe close) close.span

/-- The field a token names after `relation.`, and whether in braces. -/
def memberName (token : Token N) : Option (Text × Bool) :=
  match token.kind with
  | .identifier name => some (name, false)
  | .field name true => some (name, true)
  | _ => none

/-- After `relation.`; only one level is in reach. -/
def member (name : Text) (nameToken : Token N) : Parse N (SyntaxNode N) := do
  let _ ← next
  let token ← next
  match memberName token with
  | some (field, braced) => do
    let after ← peek
    match after.kind with
    | .dot => fail (js "Only one level is in reach: a field of this record or of an owned child") after.span
    | _ => return .field field braced (some ⟨name, nameToken.span⟩) ⟨nameToken.span.start, token.span.stop⟩
  | none => fail (js "Expected a field name after '" ++ name ++ js ".', found " ++ describe token) token.span

/-- What a name that stands alone means: a truth value, or a field. -/
def wordOf (name : Text) (span : Span) : SyntaxNode N :=
  if Unicode.toUpperCase name = js "TRUE" then .boolean true span
  else if Unicode.toUpperCase name = js "FALSE" then .boolean false span
  else .field name false none span

def identifier (expression : Parse N (SyntaxNode N)) (fuel : Nat) (name : Text) (token : Token N) :
    Parse N (SyntaxNode N) := do
  let following ← peek
  match following.kind with
  | .lparen => call limits expression fuel name token
  | .dot => member name token
  | _ => return wordOf name token.span

/-- What `primary` does with its first token. -/
def primaryOf (expression : Parse N (SyntaxNode N)) (fuel : Nat) (token : Token N) : Parse N (SyntaxNode N) :=
  match token.kind with
  | .number value => return .number value token.span
  | .string value terminated =>
    if terminated then return .string value token.span
    else fail (js "This text is missing its closing quote") token.span
  | .field name terminated =>
    if !terminated then fail (js "This field reference is missing its closing '\x7d'") token.span
    else if trim name = [] then fail (js "A field reference needs a name between '\x7b' and '\x7d'") token.span
    else return .field name true none token.span
  | .lparen => do
    enter limits token
    let inner ← expression
    let close ← next
    match close.kind with
    | .rparen => do
      leave
      return .paren inner ⟨token.span.start, close.span.stop⟩
    | _ => fail (js "Expected ')' to close the '(' at position " ++ decimal (token.span.start + 1) ++ js ", found " ++
        describe close) close.span
  | .identifier name => identifier limits expression fuel name token
  | .invalid => fail (js "Unexpected character '" ++ token.text ++ js "'") token.span
  | _ => fail (js "Expected a value, field or function, found " ++ describe token) token.span

def primary (expression : Parse N (SyntaxNode N)) (fuel : Nat) : Parse N (SyntaxNode N) := do
  let token ← next
  count limits token
  primaryOf limits expression fuel token

def signOf (token : Token N) : Option Sign :=
  match token.kind with
  | .operator .sub => some .minus
  | .operator .add => some .plus
  | _ => none

/-- Every nested call comes after a token was read, so the number of tokens is fuel enough. -/
def unary : Nat → Parse N (SyntaxNode N)
  | 0 => fun _ => .error .exhausted
  | fuel + 1 => do
    let token ← peek
    match signOf token with
    | some sign => do
      let _ ← next
      enter limits token
      let operand ← unary fuel
      leave
      return .unary sign operand ⟨token.span.start, operand.span.stop⟩
    | none => primary limits (comparison limits (unary fuel) (fuel + 1)) (fuel + 1)

def parse (fuel : Nat) : Parse N (SyntaxNode N) := do
  let first ← peek
  match first.kind with
  | .eof => fail (js "The formula is empty") first.span
  | _ => do
    let node ← comparison limits (unary limits fuel) fuel
    let rest ← peek
    match rest.kind with
    | .eof => return node
    | _ => fail (js "Unexpected " ++ describe rest ++ js "; expected an operator or the end of the formula") rest.span

end Grammar

section Formula
variable {N : Type} [JsNumber N] [Unicode]

def parseTokens (limits : ParserLimits) (tokens : List (Token N)) : Except Stop (SyntaxNode N) :=
  (parse limits (tokens.length + 1) ⟨tokens, 0, 0⟩).map Prod.fst

def parseFormula (limits : ParserLimits) (text : Text) : Except Stop (SyntaxNode N) :=
  if exceeds text.length limits.maxLength then
    .error (.failed ⟨.tooComplex, js "A formula is at most " ++ limitText limits.maxLength ++ js " characters",
      ⟨limits.maxLength.getD 0, text.length⟩, [(js "limit", .number (limits.maxLength.getD 0))]⟩)
  else parseTokens limits (tokenize text)

end Formula

end OpenShapeForge.Formula.SyntaxTree
