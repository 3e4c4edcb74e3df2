import OpenShapeForge.Formula.SyntaxTree

/-! The grammar of formulas over tokens, and the two measures the parser limits
(packages/formula/src/syntax.ts, the grammar at its top). -/

namespace OpenShapeForge.Formula.Grammar
open Js Types Tokens SyntaxTree

/-! How tightly a rule binds, loosest first. -/
namespace Level
abbrev comparison : Nat := 1
abbrev concatenation : Nat := 2
abbrev additive : Nat := 3
abbrev multiplicative : Nat := 4
abbrev unary : Nat := 5
abbrev primary : Nat := 6
end Level

def levelOf : BinaryOperator → Nat
  | .equal | .notEqual | .less | .greater | .lessEqual | .greaterEqual => Level.comparison
  | .concat => Level.concatenation
  | .add | .sub => Level.additive
  | .mul | .div => Level.multiplicative

section Rules
variable {N : Type} [Unicode]

/-- An argument after the first, with the comma before it. -/
structure Argument (N : Type) where
  comma : Token N
  tokens : List (Token N)
  tree : SyntaxNode N

def Argument.written (argument : Argument N) : List (Token N) := argument.comma :: argument.tokens

/-- The tokens a tree is written with at a level, where `reach` says which names
may stand behind a relation, and whether in braces. -/
inductive DerivesBy (reach : Text → Bool → Prop) : Nat → List (Token N) → SyntaxNode N → Prop
  | tighter {level tokens node} : level < Level.primary → DerivesBy reach (level + 1) tokens node →
      DerivesBy reach level tokens node
  | binary {level operator token left right leftNode rightNode} :
      token.kind = .operator operator → levelOf operator = level →
      DerivesBy reach level left leftNode → DerivesBy reach (level + 1) right rightNode →
      DerivesBy reach level (left ++ token :: right)
        (.binary operator token.span.start leftNode rightNode ⟨leftNode.span.start, rightNode.span.stop⟩)
  | unary {sign token tokens operand} :
      signOf token = some sign → DerivesBy reach Level.unary tokens operand →
      DerivesBy reach Level.unary (token :: tokens) (.unary sign operand ⟨token.span.start, operand.span.stop⟩)
  | number {token value} :
      token.kind = .number value → DerivesBy reach Level.primary [token] (.number value token.span)
  | string {token value} :
      token.kind = .string value true → DerivesBy reach Level.primary [token] (.string value token.span)
  | braced {token name} :
      token.kind = .field name true → trim name ≠ [] → DerivesBy reach Level.primary [token] (.field name true none token.span)
  | word {token name} :
      token.kind = .identifier name → DerivesBy reach Level.primary [token] (wordOf name token.span)
  | member {nameToken dot token name field braced} :
      nameToken.kind = .identifier name → dot.kind = .dot → memberName token = some (field, braced) → reach field braced →
      DerivesBy reach Level.primary [nameToken, dot, token]
        (.field field braced (some ⟨name, nameToken.span⟩) ⟨nameToken.span.start, token.span.stop⟩)
  | paren {opening tokens close inner} :
      opening.kind = .lparen → DerivesBy reach Level.comparison tokens inner → close.kind = .rparen →
      DerivesBy reach Level.primary (opening :: tokens ++ [close]) (.paren inner ⟨opening.span.start, close.span.stop⟩)
  | constant {nameToken opening close name} :
      nameToken.kind = .identifier name → opening.kind = .lparen → close.kind = .rparen →
      DerivesBy reach Level.primary [nameToken, opening, close]
        (.call (Unicode.toUpperCase name) nameToken.span.stop [] ⟨nameToken.span.start, close.span.stop⟩)
  | call {nameToken opening tokens close name arg} {others : List (Argument N)} :
      nameToken.kind = .identifier name → opening.kind = .lparen → DerivesBy reach Level.comparison tokens arg →
      (∀ other ∈ others, other.comma.kind = .comma) →
      (∀ other ∈ others, DerivesBy reach Level.comparison other.tokens other.tree) → close.kind = .rparen →
      DerivesBy reach Level.primary (nameToken :: opening :: tokens ++ others.flatMap Argument.written ++ [close])
        (.call (Unicode.toUpperCase name) nameToken.span.stop (arg :: others.map Argument.tree)
          ⟨nameToken.span.start, close.span.stop⟩)

/-- What the parser goes by: it takes any name behind a relation. -/
abbrev Derives : Nat → List (Token N) → SyntaxNode N → Prop := DerivesBy fun _ _ => True

/-- The grammar as it is documented: no name in braces is blank. -/
abbrev Documented : Nat → List (Token N) → SyntaxNode N → Prop :=
  DerivesBy fun name braced => braced = true → trim name ≠ []

end Rules

section Measures
variable {N : Type}

mutual
/-- The values and operators of a tree. -/
def nodes : SyntaxNode N → Nat
  | .number _ _ | .string _ _ | .boolean _ _ | .field _ _ _ _ => 1
  | .call _ _ args _ => 1 + nodesAll args
  | .unary _ operand _ => nodes operand
  | .binary _ _ left right _ => nodes left + 1 + nodes right
  | .paren inner _ => 1 + nodes inner

def nodesAll : List (SyntaxNode N) → Nat
  | [] => 0
  | arg :: rest => nodes arg + nodesAll rest
end

mutual
/-- The most parentheses, calls and signs around one place of a tree. -/
def nesting : SyntaxNode N → Nat
  | .number _ _ | .string _ _ | .boolean _ _ | .field _ _ _ _ => 0
  | .call _ _ args _ => nestingAll args + 1
  | .unary _ operand _ => nesting operand + 1
  | .binary _ _ left right _ => max (nesting left) (nesting right)
  | .paren inner _ => nesting inner + 1

def nestingAll : List (SyntaxNode N) → Nat
  | [] => 0
  | arg :: rest => max (nesting arg) (nestingAll rest)
end

theorem nodes_wordOf [Unicode] (name : Text) (span : Span) : nodes (wordOf name span : SyntaxNode N) = 1 := by
  unfold wordOf
  split
  · rfl
  · split <;> rfl

theorem nesting_wordOf [Unicode] (name : Text) (span : Span) : nesting (wordOf name span : SyntaxNode N) = 0 := by
  unfold wordOf
  split
  · rfl
  · split <;> rfl

end Measures

section Heads
variable {N : Type}

/-- Whether an expression can begin with a token. -/
def starts (token : Token N) : Bool :=
  match token.kind with
  | .number _ | .string _ _ | .field _ _ | .identifier _ | .lparen => true
  | .operator _ => (signOf token).isSome
  | _ => false

theorem starts_of_sign {token : Token N} {sign : Sign} (signed : signOf token = some sign) : starts token = true := by
  rcases token with ⟨kind, text, span⟩
  cases kind with
  | operator symbol =>
    unfold starts
    rw [signed]
    rfl
  | _ => simp [signOf] at signed

theorem head_of_kind (first : Token N) (rest : List (Token N)) (begins : starts first = true)
    (unsigned : signOf first = none) (level : Nat) :
    ∃ head tail, first :: rest = head :: tail ∧ starts head = true ∧ (level = Level.primary → signOf head = none) :=
  ⟨first, rest, rfl, begins, fun _ => unsigned⟩

variable [Unicode]

theorem Derives.head {level : Nat} {tokens : List (Token N)} {node : SyntaxNode N} (derived : Derives level tokens node) :
    ∃ first rest, tokens = first :: rest ∧ starts first = true ∧ (level = Level.primary → signOf first = none) := by
  induction derived with
  | tighter below _ ih =>
    rcases ih with ⟨first, rest, same, begins, _⟩
    exact ⟨first, rest, same, begins, fun isPrimary => absurd isPrimary (Nat.ne_of_lt below)⟩
  | @binary _ operator token left right _ _ _ atLevel _ _ ih _ =>
    rcases ih with ⟨first, rest, same, begins, _⟩
    refine ⟨first, rest ++ token :: right, by rw [same, List.cons_append], begins, fun isPrimary => ?_⟩
    rw [isPrimary] at atLevel
    cases operator <;> exact absurd atLevel (by decide)
  | unary signed _ _ => exact ⟨_, _, rfl, starts_of_sign signed, fun isPrimary => absurd isPrimary (by decide)⟩
  | number kind => exact head_of_kind _ _ (by rw [starts, kind]) (by rw [signOf, kind]) _
  | string kind => exact head_of_kind _ _ (by rw [starts, kind]) (by rw [signOf, kind]) _
  | braced kind _ => exact head_of_kind _ _ (by rw [starts, kind]) (by rw [signOf, kind]) _
  | word kind => exact head_of_kind _ _ (by rw [starts, kind]) (by rw [signOf, kind]) _
  | member kind _ _ _ => exact head_of_kind _ _ (by rw [starts, kind]) (by rw [signOf, kind]) _
  | paren kind _ _ _ => exact head_of_kind _ _ (by rw [starts, kind]) (by rw [signOf, kind]) _
  | constant kind _ _ => exact head_of_kind _ _ (by rw [starts, kind]) (by rw [signOf, kind]) _
  | call kind _ _ _ _ _ _ _ => exact head_of_kind _ _ (by rw [starts, kind]) (by rw [signOf, kind]) _

theorem Derives.loosen {low high : Nat} {tokens : List (Token N)} {node : SyntaxNode N} (derived : Derives high tokens node)
    (looser : low ≤ high) (inside : high ≤ Level.primary) : Derives low tokens node := by
  induction looser with
  | refl => exact derived
  | @step high _ ih => exact ih (.tighter inside derived) (Nat.le_of_succ_le inside)

end Heads

end OpenShapeForge.Formula.Grammar
