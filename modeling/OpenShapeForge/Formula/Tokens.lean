import OpenShapeForge.Formula.Types
import OpenShapeForge.Js.Unicode

/-! Formula text as tokens (packages/formula/src/syntax.ts). -/

namespace OpenShapeForge.Formula.Tokens
open Js Types

inductive BinaryOperator where
  | add | sub | mul | div | concat | equal | notEqual | less | greater | lessEqual | greaterEqual
deriving DecidableEq

def BinaryOperator.symbol : BinaryOperator → Text
  | add => js "+"
  | sub => js "-"
  | mul => js "*"
  | div => js "/"
  | concat => js "&"
  | equal => js "="
  | notEqual => js "!="
  | less => js "<"
  | greater => js ">"
  | lessEqual => js "<="
  | greaterEqual => js ">="

/-- The type of a token with its decoded value. A string or a field that runs to
the end of the text is not terminated. -/
inductive TokenKind (N : Type) where
  | number (value : N)
  | string (value : Text) (terminated : Bool)
  | field (name : Text) (terminated : Bool)
  | identifier (name : Text)
  | operator (symbol : BinaryOperator)
  | lparen | rparen | comma | dot | invalid | eof
deriving DecidableEq

structure Token (N : Type) where
  kind : TokenKind N
  text : Text
  span : Span
deriving DecidableEq

def maxFormulaLength : Nat := 10000

section Characters
variable [Unicode]

def isIdentifierStart (character : Text) : Bool := Unicode.isLetter character || decide (character = js "_")

def isIdentifierPart (character : Text) : Bool :=
  Unicode.isLetter character || Unicode.isNumber character || decide (character = js "_")

def isLeadSurrogate (c : CodeUnit) : Bool := 0xD800 ≤ c && c ≤ 0xDBFF
def isTrailSurrogate (c : CodeUnit) : Bool := 0xDC00 ≤ c && c ≤ 0xDFFF

/-- The characters a `for` loop over a string gives: a surrogate pair is one. -/
def characters : Text → List Text
  | [] => []
  | [c] => [[c]]
  | c :: next :: rest =>
    if isLeadSurrogate c && isTrailSurrogate next then [c, next] :: characters rest
    else [c] :: characters (next :: rest)

def isIdentifier (text : Text) : Bool :=
  match text with
  | [] => false
  | c :: rest => isIdentifierStart [c] && (characters rest).all isIdentifierPart

end Characters

/-- What stands between braces: the name, the units read and whether it was closed. -/
def scanBraced : Text → Text × Nat × Bool
  | [] => ([], 0, false)
  | [c] => if c = unit '}' then ([], 1, true) else ([c], 1, false)
  | c :: next :: rest =>
    if c = unit '\\' ∧ next ∈ js "\x7b\x7d\\" then
      let (name, read, closed) := scanBraced rest
      (next :: name, read + 2, closed)
    else if c = unit '}' then ([], 1, true)
    else
      let (name, read, closed) := scanBraced (next :: rest)
      (c :: name, read + 1, closed)

def unescape (next : CodeUnit) : CodeUnit :=
  if next = unit 'n' then unit '\n' else if next = unit 't' then unit '\t' else next

/-- What stands between quotes, read as `scanBraced` reads. -/
def scanQuoted (quote : CodeUnit) : Text → Text × Nat × Bool
  | [] => ([], 0, false)
  | [c] => if c = quote then ([], 1, true) else ([c], 1, false)
  | c :: next :: rest =>
    if c = unit '\\' then
      let (value, read, closed) := scanQuoted quote rest
      (unescape next :: value, read + 2, closed)
    else if c = quote then ([], 1, true)
    else
      let (value, read, closed) := scanQuoted quote (next :: rest)
      (c :: value, read + 1, closed)

/-- The units of `\d+(\.\d*)?` or `\.\d+` at the start of a text, 0 for neither. -/
def mantissaLength (text : Text) : Nat :=
  let whole := (text.takeWhile isDigit).length
  match text.drop whole with
  | c :: rest =>
    if c = unit '.' then
      let fraction := (rest.takeWhile isDigit).length
      if whole = 0 ∧ fraction = 0 then 0 else whole + 1 + fraction
    else whole
  | [] => whole

/-- The units of `[eE][+-]?\d+` at the start of a text. -/
def exponentLength : Text → Nat
  | [] => 0
  | c :: rest =>
    if c = unit 'e' ∨ c = unit 'E' then
      let sign := if rest.head? = some (unit '+') ∨ rest.head? = some (unit '-') then 1 else 0
      let digits := ((rest.drop sign).takeWhile isDigit).length
      if digits = 0 then 0 else 1 + sign + digits
    else 0

def numberLength (text : Text) : Nat :=
  if mantissaLength text = 0 then 0 else mantissaLength text + exponentLength (text.drop (mantissaLength text))

def operators : List (Text × BinaryOperator) :=
  [(js "<=", .lessEqual), (js ">=", .greaterEqual), (js "!=", .notEqual), (js "<>", .notEqual), (js "+", .add),
    (js "-", .sub), (js "*", .mul), (js "/", .div), (js "&", .concat), (js "=", .equal), (js "<", .less),
    (js ">", .greater)]

section Tokenize
variable {N : Type} [JsNumber N] [Unicode]

def single (c : CodeUnit) : TokenKind N :=
  if c = unit '(' then .lparen
  else if c = unit ')' then .rparen
  else if c = unit ',' then .comma
  else if c = unit '.' then .dot
  else .invalid

/-- The token at the start of a text without leading white space, and the units it takes. -/
def lexeme : Text → TokenKind N × Nat
  | [] => (.eof, 0)
  | c :: rest =>
    if c = unit '\x7b' then
      let (name, read, closed) := scanBraced rest
      (.field name closed, read + 1)
    else if c = unit '"' ∨ c = unit '\'' then
      let (value, read, closed) := scanQuoted c rest
      (.string value closed, read + 1)
    else if 0 < numberLength (c :: rest) then
      (.number (JsNumber.ofText ((c :: rest).take (numberLength (c :: rest)))), numberLength (c :: rest))
    else if isIdentifierStart [c] then
      let name := c :: rest.takeWhile fun part => isIdentifierPart [part]
      (.identifier name, name.length)
    else
      match operators.find? fun entry => entry.1.isPrefixOf (c :: rest) with
      | some (spelling, operator) => (.operator operator, spelling.length)
      | none => (single c, 1)

/-- Every turn reads at least one unit, so the length of the text is fuel enough. -/
def tokenizeFrom : Nat → Nat → Text → List (Token N)
  | _, offset, [] => [⟨.eof, [], ⟨offset, offset⟩⟩]
  | 0, offset, _ => [⟨.eof, [], ⟨offset, offset⟩⟩]
  | fuel + 1, offset, c :: rest =>
    if isWhitespace c then tokenizeFrom fuel (offset + 1) rest
    else
      let (kind, read) := lexeme (c :: rest)
      ⟨kind, (c :: rest).take read, ⟨offset, offset + read⟩⟩ ::
        tokenizeFrom fuel (offset + read) ((c :: rest).drop read)

def tokenize (text : Text) : List (Token N) := tokenizeFrom text.length 0 text

end Tokenize

end OpenShapeForge.Formula.Tokens
