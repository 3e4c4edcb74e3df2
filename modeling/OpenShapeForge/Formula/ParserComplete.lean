import OpenShapeForge.Formula.Grammar

/-! What the grammar derives, the parser reads, as long as the limits allow it. -/

namespace OpenShapeForge.Formula.ParserComplete
open Js Types Tokens SyntaxTree Grammar

section Steps
variable {N α β : Type}

theorem bind_of_ok {first : Parse N α} {next : α → Parse N β} {state after : ParserState N} {value : α}
    (done : first state = .ok (value, after)) : (first >>= next) state = next value after := by
  show andThen first next state = _
  rw [andThen, done]

theorem peek_bind (next : Token N → Parse N β) (state : ParserState N) :
    (peek >>= next) state = next state.head state := rfl

theorem head_cons {token : Token N} {rest : List (Token N)} {state : ParserState N} (at_ : state.tokens = token :: rest) :
    state.head = token := by
  rw [ParserState.head, at_]
  rfl

theorem next_of_cons {token : Token N} {rest : List (Token N)} {state : ParserState N}
    (written : state.tokens = token :: rest) (inside : token.kind ≠ .eof) :
    next state = .ok (token, { state with tokens := rest }) := by
  unfold next
  rw [head_cons written, written]
  split
  · contradiction
  · rfl

theorem count_of_fits {limits : ParserLimits} {token : Token N} {tokens : List (Token N)} {depth nodes : Nat}
    (fits : exceeds (nodes + 1) limits.maxNodes = false) :
    count limits token ⟨tokens, depth, nodes⟩ = .ok ((), ⟨tokens, depth, nodes + 1⟩) := by
  unfold count
  rw [fits]
  rfl

theorem enter_of_fits {limits : ParserLimits} {token : Token N} {tokens : List (Token N)} {depth nodes : Nat}
    (fits : exceeds (depth + 1) limits.maxNesting = false) :
    enter limits token ⟨tokens, depth, nodes⟩ = .ok ((), ⟨tokens, depth + 1, nodes⟩) := by
  unfold enter
  rw [fits]
  rfl

theorem kind_of_operatorOf {token : Token N} {operator : BinaryOperator} (found : operatorOf token = some operator) :
    token.kind = .operator operator := by
  unfold operatorOf at found
  split at found
  case h_1 symbol kind => rw [kind, Option.some.inj found]
  case h_2 => contradiction

theorem exceeds_mono {small large : Nat} {limit : Option Nat} (smaller : small ≤ large)
    (fits : exceeds large limit = false) : exceeds small limit = false := by
  cases limit with
  | none => rfl
  | some limit =>
    simp only [exceeds, decide_eq_false_iff_not] at fits ⊢
    omega

end Steps

section Levels
variable {N : Type} [Unicode] (limits : ParserLimits)

def isLevel (level : Nat) (operator : BinaryOperator) : Bool := decide (levelOf operator = level)

def levelParser (fuel loops : Nat) : Nat → Parse N (SyntaxNode N)
  | 1 => comparison limits (unary limits fuel) loops
  | 2 => concatenation limits (unary limits fuel) loops
  | 3 => additive limits (unary limits fuel) loops
  | 4 => multiplicative limits (unary limits fuel) loops
  | 5 => unary limits fuel
  | _ => primary limits (comparison limits (unary limits (fuel - 1)) fuel) fuel

theorem levelParser_binary (fuel loops : Nat) {level : Nat} (low : 1 ≤ level) (high : level ≤ 4) :
    levelParser (N := N) limits fuel loops level =
      binaryLevel limits (isLevel level) (levelParser limits fuel loops (level + 1)) loops := by
  have operators : ∀ chosen : BinaryOperator → Bool, (∀ operator, chosen operator = isLevel level operator) →
      chosen = isLevel level := fun _ same => funext same
  rcases level with _ | _ | _ | _ | _ | level
  · omega
  · rw [← operators isComparison fun operator => by cases operator <;> rfl]
    rfl
  · rw [← operators isConcatenation fun operator => by cases operator <;> rfl]
    rfl
  · rw [← operators isAdditive fun operator => by cases operator <;> rfl]
    rfl
  · rw [← operators isMultiplicative fun operator => by cases operator <;> rfl]
    rfl
  · omega

theorem levelParser_unary (fuel loops : Nat) : levelParser (N := N) limits fuel loops Level.unary = unary limits fuel := rfl

theorem levelParser_primary (fuel loops : Nat) : levelParser (N := N) limits fuel loops Level.primary =
    primary limits (comparison limits (unary limits (fuel - 1)) fuel) fuel := rfl

theorem levelParser_primary_succ (fuel loops : Nat) : levelParser (N := N) limits (fuel + 1) loops Level.primary =
    primary limits (levelParser limits fuel (fuel + 1) Level.comparison) (fuel + 1) := rfl

end Levels

section Reading
variable {N : Type} [Unicode] (limits : ParserLimits)

structure Stops (level : Nat) (token : Token N) : Prop where
  noCall : token.kind ≠ .lparen
  noMember : token.kind ≠ .dot
  looser : ∀ operator, token.kind = .operator operator → levelOf operator < level

structure Within (state : ParserState N) (node : SyntaxNode N) : Prop where
  few : exceeds (state.nodes + nodes node) limits.maxNodes = false
  shallow : exceeds (state.depth + nesting node) limits.maxNesting = false

def behind (state : ParserState N) (rest : List (Token N)) (node : SyntaxNode N) : ParserState N :=
  ⟨rest, state.depth, state.nodes + nodes node⟩

def Reads (level : Nat) (tokens : List (Token N)) (node : SyntaxNode N) : Prop :=
  ∀ fuel loops rest (state : ParserState N), state.tokens = tokens ++ rest → Stops level (rest.headD endToken) →
    tokens.length ≤ fuel → tokens.length < loops → Within limits state node →
    levelParser limits fuel loops level state = .ok (node, behind state rest node)

/-- The parser of a level gets to its loop with this tree on the left. -/
def Extends (level : Nat) (tokens : List (Token N)) (node : SyntaxNode N) : Prop :=
  ∀ fuel loops rest (state : ParserState N), state.tokens = tokens ++ rest → Stops (level + 1) (rest.headD endToken) →
    tokens.length ≤ fuel → tokens.length < loops → Within limits state node →
    ∃ left, loops ≤ left + tokens.length ∧ levelParser limits fuel loops level state =
      binaryRest limits (isLevel level) (levelParser limits fuel loops (level + 1)) left node (behind state rest node)

variable {limits}

omit [Unicode] in
theorem Stops.mono {small large : Nat} {token : Token N} (stops : Stops small token) (smaller : small ≤ large) :
    Stops large token :=
  ⟨stops.noCall, stops.noMember, fun operator kind => Nat.lt_of_lt_of_le (stops.looser operator kind) smaller⟩

theorem extends_of_reads {level : Nat} {tokens : List (Token N)} {node : SyntaxNode N} (low : 1 ≤ level)
    (high : level ≤ 4) (reads : Reads limits (level + 1) tokens node) : Extends limits level tokens node := by
  intro fuel loops rest state written stops enough enoughLoops within
  refine ⟨loops, Nat.le_add_right _ _, ?_⟩
  rw [levelParser_binary limits fuel loops low high, binaryLevel]
  exact bind_of_ok (reads fuel loops rest state written stops enough enoughLoops within)

omit [Unicode] in
theorem binaryRest_stop {level : Nat} {operand : Parse N (SyntaxNode N)} {node : SyntaxNode N} {state : ParserState N}
    (stops : Stops level state.head) (loops : Nat) :
    binaryRest limits (isLevel level) operand (loops + 1) node state = .ok (node, state) := by
  rw [binaryRest, peek_bind]
  cases found : operatorOf state.head with
  | none => rfl
  | some operator =>
    have other : isLevel level operator = false := by
      rw [isLevel, decide_eq_false_iff_not]
      exact Nat.ne_of_lt (stops.looser operator (kind_of_operatorOf found))
    show (if isLevel level operator = true then _ else _ : Parse N (SyntaxNode N)) state = _
    rw [other]
    rfl

theorem reads_of_extends {level : Nat} {tokens : List (Token N)} {node : SyntaxNode N}
    (extended : Extends limits level tokens node) : Reads limits level tokens node := by
  intro fuel loops rest state written stops enough enoughLoops within
  rcases extended fuel loops rest state written (stops.mono (Nat.le_succ _)) enough enoughLoops within with
    ⟨left, bound, reaches⟩
  rw [reaches]
  obtain ⟨more, rfl⟩ : ∃ more, left = more + 1 := ⟨left - 1, by omega⟩
  exact binaryRest_stop stops more

omit [Unicode] in
theorem Within.smaller {state : ParserState N} {node inner : SyntaxNode N} (within : Within limits state node)
    (fewer : nodes inner ≤ nodes node) (shallower : nesting inner ≤ nesting node) : Within limits state inner :=
  ⟨exceeds_mono (Nat.add_le_add_left fewer _) within.few, exceeds_mono (Nat.add_le_add_left shallower _) within.shallow⟩

theorem extends_binary {level : Nat} {operator : BinaryOperator} {token : Token N} {left right : List (Token N)}
    {leftNode rightNode : SyntaxNode N} (kind : token.kind = .operator operator) (atLevel : levelOf operator = level)
    (leftExtends : Extends limits level left leftNode) (rightReads : Reads limits (level + 1) right rightNode) :
    Extends limits level (left ++ token :: right)
      (.binary operator token.span.start leftNode rightNode ⟨leftNode.span.start, rightNode.span.stop⟩) := by
  intro fuel loops rest state written stops enough enoughLoops within
  rw [List.length_append, List.length_cons] at enough enoughLoops
  have leftStops : Stops (level + 1) ((token :: (right ++ rest)).headD endToken) := by
    refine ⟨by rw [List.headD_cons, kind]; simp, by rw [List.headD_cons, kind]; simp, fun other otherKind => ?_⟩
    rw [List.headD_cons, kind, TokenKind.operator.injEq] at otherKind
    rw [← otherKind, atLevel]
    exact Nat.lt_succ_self _
  have leftWithin : Within limits state leftNode :=
    within.smaller (by simp only [nodes]; omega) (by simp only [nesting]; omega)
  rcases leftExtends fuel loops (token :: (right ++ rest)) state (by rw [written]; simp) leftStops (by omega) (by omega)
    leftWithin with ⟨turns, bound, reaches⟩
  obtain ⟨turns, rfl⟩ : ∃ fewer, turns = fewer + 1 := ⟨turns - 1, by omega⟩
  refine ⟨turns, by rw [List.length_append, List.length_cons]; omega, ?_⟩
  rw [reaches, binaryRest, peek_bind]
  have atToken : (behind state (token :: (right ++ rest)) leftNode).head = token := rfl
  have found : operatorOf token = some operator := by rw [operatorOf, kind]
  have chosen : isLevel level operator = true := by rw [isLevel, atLevel]; exact decide_eq_true rfl
  rw [atToken, found]
  show (if isLevel level operator = true then _ else _ : Parse N (SyntaxNode N)) _ = _
  rw [if_pos chosen, bind_of_ok (next_of_cons rfl (by rw [kind]; simp))]
  have nodesFit := within.few
  have nestingFit := within.shallow
  simp only [nodes, nesting] at nodesFit nestingFit
  rw [bind_of_ok (count_of_fits (exceeds_mono (by simp only [behind]; omega) nodesFit))]
  rw [bind_of_ok (rightReads fuel loops rest _ rfl stops (by omega) (by omega)
    ⟨exceeds_mono (by simp only [behind]; omega) nodesFit, exceeds_mono (by simp only [behind]; omega) nestingFit⟩)]
  congr 1
  simp only [behind, nodes, ParserState.mk.injEq, true_and]
  omega

theorem primary_begin {expression : Parse N (SyntaxNode N)} {fuel : Nat} {first : Token N} {rest : List (Token N)}
    {state : ParserState N} (written : state.tokens = first :: rest) (inside : first.kind ≠ .eof)
    (fits : exceeds (state.nodes + 1) limits.maxNodes = false) :
    primary limits expression fuel state =
      primaryOf limits expression fuel first ⟨rest, state.depth, state.nodes + 1⟩ := by
  rw [primary, bind_of_ok (next_of_cons written inside), bind_of_ok (count_of_fits fits)]

theorem reads_leaf {token : Token N} {node : SyntaxNode N} (inside : token.kind ≠ .eof) (one : nodes node = 1)
    (gives : ∀ (expression : Parse N (SyntaxNode N)) fuel (state : ParserState N), Stops Level.primary state.head →
      primaryOf limits expression fuel token state = .ok (node, state)) :
    Reads limits Level.primary [token] node := by
  intro fuel loops rest state written stops enough enoughLoops within
  have fits := within.few
  rw [one] at fits
  rw [levelParser_primary, primary_begin written inside fits]
  rw [behind, one]
  exact gives _ _ ⟨rest, state.depth, state.nodes + 1⟩ stops

theorem reads_number {token : Token N} {value : N} (kind : token.kind = .number value) :
    Reads limits Level.primary [token] (.number value token.span) := by
  refine reads_leaf (by rw [kind]; simp) rfl fun expression fuel state _ => ?_
  rw [primaryOf, kind]
  rfl

theorem reads_string {token : Token N} {value : Text} (kind : token.kind = .string value true) :
    Reads limits Level.primary [token] (.string value token.span) := by
  refine reads_leaf (by rw [kind]; simp) rfl fun expression fuel state _ => ?_
  rw [primaryOf, kind]
  rfl

theorem reads_braced {token : Token N} {name : Text} (kind : token.kind = .field name true) (named : trim name ≠ []) :
    Reads limits Level.primary [token] (.field name true none token.span) := by
  refine reads_leaf (by rw [kind]; simp) rfl fun expression fuel state _ => ?_
  rw [primaryOf, kind]
  show (if (!true) = true then _ else if trim name = [] then _ else _ : Parse N (SyntaxNode N)) state = _
  rw [if_neg (by decide), if_neg named]
  rfl

theorem reads_word {token : Token N} {name : Text} (kind : token.kind = .identifier name) :
    Reads limits Level.primary [token] (wordOf name token.span) := by
  refine reads_leaf (by rw [kind]; simp) (nodes_wordOf name _) fun expression fuel state stops => ?_
  rw [primaryOf, kind]
  show identifier limits expression fuel name token state = _
  rw [identifier, peek_bind]
  cases following : state.head.kind with
  | lparen => exact absurd following stops.noCall
  | dot => exact absurd following stops.noMember
  | _ => rfl

theorem reads_member {nameToken dot token : Token N} {name field : Text} {braced : Bool}
    (nameKind : nameToken.kind = .identifier name) (dotKind : dot.kind = .dot)
    (memberKind : memberName token = some (field, braced)) :
    Reads limits Level.primary [nameToken, dot, token]
      (.field field braced (some ⟨name, nameToken.span⟩) ⟨nameToken.span.start, token.span.stop⟩) := by
  intro fuel loops rest state written stops enough enoughLoops within
  have inside : token.kind ≠ .eof := by
    intro isEnd
    rw [memberName, isEnd] at memberKind
    cases memberKind
  rw [levelParser_primary, primary_begin written (by rw [nameKind]; simp) within.few, primaryOf, nameKind]
  show identifier limits _ fuel name nameToken _ = _
  rw [identifier, peek_bind, head_cons rfl, dotKind]
  show member name nameToken _ = _
  rw [member, bind_of_ok (next_of_cons rfl (by rw [dotKind]; simp)), bind_of_ok (next_of_cons rfl inside), memberKind]
  show (peek >>= _) _ = _
  rw [peek_bind]
  have after : (rest.headD endToken).kind ≠ .dot := stops.noMember
  cases following : (rest.headD endToken).kind with
  | dot => exact absurd following after
  | _ =>
    simp only [ParserState.head, List.append_eq, List.nil_append, following]
    rfl

omit [Unicode] in
theorem sign_inside {token : Token N} {sign : Sign} (signed : signOf token = some sign) : token.kind ≠ .eof := by
  intro isEnd
  rw [signOf, isEnd] at signed
  cases signed

theorem reads_unary {sign : Sign} {token : Token N} {tokens : List (Token N)} {operand : SyntaxNode N}
    (signed : signOf token = some sign) (reads : Reads limits Level.unary tokens operand) :
    Reads limits Level.unary (token :: tokens) (.unary sign operand ⟨token.span.start, operand.span.stop⟩) := by
  intro fuel loops rest state written stops enough enoughLoops within
  rw [List.length_cons] at enough enoughLoops
  obtain ⟨fuel, rfl⟩ : ∃ less, fuel = less + 1 := ⟨fuel - 1, by omega⟩
  have deeper := within.shallow
  simp only [nesting] at deeper
  rw [levelParser_unary, unary, peek_bind, head_cons written, signed]
  show (next >>= _) _ = _
  rw [bind_of_ok (next_of_cons written (sign_inside signed))]
  rw [bind_of_ok (enter_of_fits (exceeds_mono (by omega) deeper))]
  have inner := reads fuel loops rest ⟨tokens ++ rest, state.depth + 1, state.nodes⟩ rfl stops (by omega) (by omega)
    ⟨within.few, exceeds_mono (by show state.depth + 1 + nesting operand ≤ _; omega) deeper⟩
  rw [levelParser_unary] at inner
  exact bind_of_ok inner

theorem reads_of_primary {tokens : List (Token N)} {node : SyntaxNode N} (derived : Derives Level.primary tokens node)
    (reads : Reads limits Level.primary tokens node) : Reads limits Level.unary tokens node := by
  intro fuel loops rest state written stops enough enoughLoops within
  rcases derived.head with ⟨first, later, same, begins, unsigned⟩
  have long : tokens.length = later.length + 1 := by rw [same, List.length_cons]
  obtain ⟨fuel, rfl⟩ : ∃ less, fuel = less + 1 := ⟨fuel - 1, by omega⟩
  have atFirst : state.head = first := head_cons (written.trans (by rw [same, List.cons_append]))
  rw [levelParser_unary, unary, peek_bind, atFirst, unsigned rfl]
  exact reads (fuel + 1) loops rest state written (stops.mono (by decide)) enough enoughLoops within

omit [Unicode] in
theorem stops_closing {token : Token N} (kind : token.kind = .rparen ∨ token.kind = .comma) :
    Stops Level.comparison token := by
  rcases kind with kind | kind
  · exact ⟨by rw [kind]; simp, by rw [kind]; simp, by rw [kind]; simp⟩
  · exact ⟨by rw [kind]; simp, by rw [kind]; simp, by rw [kind]; simp⟩

theorem reads_paren {opening close : Token N} {tokens : List (Token N)} {inner : SyntaxNode N}
    (openKind : opening.kind = .lparen) (reads : Reads limits Level.comparison tokens inner)
    (closeKind : close.kind = .rparen) :
    Reads limits Level.primary (opening :: tokens ++ [close]) (.paren inner ⟨opening.span.start, close.span.stop⟩) := by
  intro fuel loops rest state written stops enough enoughLoops within
  simp only [List.length_append, List.length_cons, List.length_nil] at enough enoughLoops
  obtain ⟨fuel, rfl⟩ : ∃ less, fuel = less + 1 := ⟨fuel - 1, by omega⟩
  have begins : state.tokens = opening :: (tokens ++ close :: rest) := by rw [written]; simp
  have fewer := within.few
  have deeper := within.shallow
  simp only [nodes, nesting] at fewer deeper
  rw [levelParser_primary_succ, primary_begin begins (by rw [openKind]; simp) (exceeds_mono (by omega) fewer)]
  rw [primaryOf, openKind]
  show (enter limits opening >>= _) _ = _
  rw [bind_of_ok (enter_of_fits (exceeds_mono (by omega) deeper))]
  have read := reads fuel (fuel + 1) (close :: rest) ⟨tokens ++ close :: rest, state.depth + 1, state.nodes + 1⟩ rfl
    (stops_closing (.inl closeKind)) (by omega) (by omega)
    ⟨exceeds_mono (by show state.nodes + 1 + nodes inner ≤ _; omega) fewer,
      exceeds_mono (by show state.depth + 1 + nesting inner ≤ _; omega) deeper⟩
  rw [bind_of_ok read, bind_of_ok (next_of_cons rfl (by rw [closeKind]; simp)), closeKind]
  show Except.ok (_, _) = _
  congr 1
  simp only [behind, nodes, Prod.mk.injEq, ParserState.mk.injEq, true_and]
  omega

omit [Unicode] in
theorem arguments_of_starts {expression : Parse N (SyntaxNode N)} {fuel : Nat} {state : ParserState N}
    (begins : starts state.head = true) : arguments expression fuel state = callArgs expression fuel [] state := by
  rw [arguments, peek_bind]
  cases kind : state.head.kind with
  | rparen => rw [starts, kind] at begins; cases begins
  | _ => rfl

omit [Unicode] in
theorem arguments_empty {expression : Parse N (SyntaxNode N)} {fuel : Nat} {close : Token N} {rest : List (Token N)}
    {state : ParserState N} (written : state.tokens = close :: rest) (kind : close.kind = .rparen) :
    arguments expression fuel state = .ok ([], state) := by
  rw [arguments, peek_bind, head_cons written, kind]
  rfl

theorem reads_constant {nameToken opening close : Token N} {name : Text} (nameKind : nameToken.kind = .identifier name)
    (openKind : opening.kind = .lparen) (closeKind : close.kind = .rparen) :
    Reads limits Level.primary [nameToken, opening, close]
      (.call (Unicode.toUpperCase name) nameToken.span.stop [] ⟨nameToken.span.start, close.span.stop⟩) := by
  intro fuel loops rest state written stops enough enoughLoops within
  rw [levelParser_primary, primary_begin written (by rw [nameKind]; simp) within.few, primaryOf, nameKind]
  show identifier limits _ fuel name nameToken _ = _
  rw [identifier, peek_bind, head_cons rfl, openKind]
  show call limits _ fuel name nameToken _ = _
  rw [call, bind_of_ok (next_of_cons rfl (by rw [openKind]; simp)), bind_of_ok (enter_of_fits within.shallow)]
  rw [bind_of_ok (arguments_empty rfl closeKind), bind_of_ok (next_of_cons rfl (by rw [closeKind]; simp)), closeKind]
  rfl

omit [Unicode] in
theorem not_closing {token : Token N} (begins : starts token = true) : isClosing token = false := by
  rcases token with ⟨kind, text, span⟩
  cases kind with
  | comma | rparen => cases begins
  | _ => rfl

theorem callArgs_step {fuel loops : Nat} {tokens rest : List (Token N)} {arg : SyntaxNode N}
    {before : List (SyntaxNode N)} {state : ParserState N} (derived : Derives Level.comparison tokens arg)
    (reads : Reads limits Level.comparison tokens arg) (written : state.tokens = tokens ++ rest)
    (closing : (rest.headD endToken).kind = .rparen ∨ (rest.headD endToken).kind = .comma)
    (enough : tokens.length ≤ fuel) (within : Within limits state arg) :
    callArgs (levelParser limits fuel (fuel + 1) Level.comparison) (loops + 1) before state =
      (match (rest.headD endToken).kind with
        | .comma => (do
            let _ ← next
            callArgs (levelParser limits fuel (fuel + 1) Level.comparison) loops (before ++ [arg]) : Parse N _)
        | _ => finish (before ++ [arg])) (behind state rest arg) := by
  rcases derived.head with ⟨first, later, same, begins, _⟩
  have atFirst : state.head = first := head_cons (written.trans (by rw [same, List.cons_append]))
  rw [callArgs, peek_bind, atFirst, not_closing begins]
  show (levelParser limits fuel (fuel + 1) Level.comparison >>= _) state = _
  rw [bind_of_ok (reads fuel (fuel + 1) rest state written (stops_closing closing) enough (by omega) within), peek_bind]
  rfl

theorem callArgs_reads {fuel : Nat} {tokens rest : List (Token N)} {arg : SyntaxNode N} {others : List (Argument N)}
    (derived : Derives Level.comparison tokens arg) (reads : Reads limits Level.comparison tokens arg)
    (commas : ∀ other ∈ others, other.comma.kind = .comma)
    (derivedAll : ∀ other ∈ others, Derives Level.comparison other.tokens other.tree)
    (readsAll : ∀ other ∈ others, Reads limits Level.comparison other.tokens other.tree)
    (closed : (rest.headD endToken).kind = .rparen) (loops : Nat) (before : List (SyntaxNode N)) (state : ParserState N)
    (written : state.tokens = tokens ++ (others.flatMap Argument.written ++ rest))
    (enough : tokens.length + (others.flatMap Argument.written).length ≤ fuel) (enoughLoops : others.length < loops)
    (few : exceeds (state.nodes + nodesAll (arg :: others.map Argument.tree)) limits.maxNodes = false)
    (shallow : exceeds (state.depth + nestingAll (arg :: others.map Argument.tree)) limits.maxNesting = false) :
    callArgs (levelParser limits fuel (fuel + 1) Level.comparison) loops before state =
      .ok (before ++ arg :: others.map Argument.tree,
        ⟨rest, state.depth, state.nodes + nodesAll (arg :: others.map Argument.tree)⟩) := by
  obtain ⟨loops, rfl⟩ : ∃ less, loops = less + 1 := ⟨loops - 1, by omega⟩
  rw [nodesAll] at few
  rw [nestingAll] at shallow
  have within : Within limits state arg := ⟨exceeds_mono (by omega) few, exceeds_mono (by omega) shallow⟩
  induction others generalizing tokens arg loops before state with
  | nil =>
    rw [List.flatMap_nil, List.nil_append] at written
    rw [List.flatMap_nil, List.length_nil] at enough
    rw [callArgs_step derived reads written (.inl closed) enough within, closed]
    rfl
  | cons other others ih =>
    rw [List.flatMap_cons, List.append_assoc] at written
    rw [List.flatMap_cons, List.length_append, Argument.written, List.length_cons] at enough
    have isComma := commas other List.mem_cons_self
    have atComma : ((other.written ++ (others.flatMap Argument.written ++ rest)).headD endToken).kind = .comma := isComma
    rw [callArgs_step derived reads written (.inr atComma) (by omega) within, atComma]
    have behindArg : (behind state (other.comma :: (other.tokens ++ (others.flatMap Argument.written ++ rest))) arg).tokens =
      other.comma :: (other.tokens ++ (others.flatMap Argument.written ++ rest)) := rfl
    show (next >>= _) (behind state (other.comma :: (other.tokens ++ (others.flatMap Argument.written ++ rest))) arg) = _
    rw [bind_of_ok (next_of_cons behindArg (by rw [isComma]; simp))]
    rw [List.map_cons, nodesAll] at few
    rw [List.map_cons, nestingAll] at shallow
    rw [List.length_cons] at enoughLoops
    obtain ⟨loops, rfl⟩ : ∃ less, loops = less + 1 := ⟨loops - 1, by omega⟩
    have inner := ih (derivedAll other List.mem_cons_self) (readsAll other List.mem_cons_self)
      (fun another member => commas another (List.mem_cons_of_mem _ member))
      (fun another member => derivedAll another (List.mem_cons_of_mem _ member))
      (fun another member => readsAll another (List.mem_cons_of_mem _ member)) (before ++ [arg])
      { behind state (other.comma :: (other.tokens ++ (others.flatMap Argument.written ++ rest))) arg with
        tokens := other.tokens ++ (others.flatMap Argument.written ++ rest) } rfl (by omega)
      (exceeds_mono (by simp only [behind]; omega) few) (exceeds_mono (by simp only [behind]; omega) shallow)
      loops (by omega)
      ⟨exceeds_mono (by simp only [behind]; omega) few, exceeds_mono (by simp only [behind]; omega) shallow⟩
    rw [inner, List.map_cons, List.append_assoc]
    congr 3
    simp only [behind, nodesAll]
    omega

omit [Unicode] in
theorem length_flatMap_written (others : List (Argument N)) :
    others.length ≤ (others.flatMap Argument.written).length := by
  induction others with
  | nil => exact Nat.le_refl _
  | cons other others ih =>
    rw [List.flatMap_cons, List.length_append, Argument.written, List.length_cons, List.length_cons]
    omega

theorem reads_call {nameToken opening close : Token N} {name : Text} {tokens : List (Token N)} {arg : SyntaxNode N}
    {others : List (Argument N)} (nameKind : nameToken.kind = .identifier name) (openKind : opening.kind = .lparen)
    (derived : Derives Level.comparison tokens arg) (reads : Reads limits Level.comparison tokens arg)
    (commas : ∀ other ∈ others, other.comma.kind = .comma)
    (derivedAll : ∀ other ∈ others, Derives Level.comparison other.tokens other.tree)
    (readsAll : ∀ other ∈ others, Reads limits Level.comparison other.tokens other.tree)
    (closeKind : close.kind = .rparen) :
    Reads limits Level.primary (nameToken :: opening :: tokens ++ others.flatMap Argument.written ++ [close])
      (.call (Unicode.toUpperCase name) nameToken.span.stop (arg :: others.map Argument.tree)
        ⟨nameToken.span.start, close.span.stop⟩) := by
  intro fuel loops rest state written stops enough enoughLoops within
  simp only [List.length_append, List.length_cons, List.length_nil] at enough enoughLoops
  obtain ⟨fuel, rfl⟩ : ∃ less, fuel = less + 1 := ⟨fuel - 1, by omega⟩
  have begins : state.tokens = nameToken :: opening :: (tokens ++ (others.flatMap Argument.written ++ close :: rest)) := by
    rw [written]
    simp
  have fewer := within.few
  have deeper := within.shallow
  simp only [nodes, nesting] at fewer deeper
  rw [levelParser_primary_succ, primary_begin begins (by rw [nameKind]; simp) (exceeds_mono (by omega) fewer)]
  rw [primaryOf, nameKind]
  show identifier limits _ (fuel + 1) name nameToken _ = _
  rw [identifier, peek_bind, head_cons rfl, openKind]
  show call limits _ (fuel + 1) name nameToken _ = _
  rw [call, bind_of_ok (next_of_cons rfl (by rw [openKind]; simp))]
  rw [bind_of_ok (enter_of_fits (exceeds_mono (by show state.depth + 1 ≤ _; omega) deeper))]
  rcases derived.head with ⟨first, later, same, begins, _⟩
  have manyArgs := length_flatMap_written others
  have inParens : tokens.length + (others.flatMap Argument.written).length ≤ fuel := by omega
  have read := callArgs_reads derived reads commas derivedAll readsAll
    (show ((close :: rest).headD endToken).kind = .rparen from closeKind) (fuel + 1) []
    ⟨tokens ++ (others.flatMap Argument.written ++ close :: rest), state.depth + 1, state.nodes + 1⟩ rfl inParens
    (by omega) (exceeds_mono (by show state.nodes + 1 + _ ≤ _; omega) fewer)
    (exceeds_mono (by show state.depth + 1 + _ ≤ _; omega) deeper)
  have atFirst : (ParserState.mk (tokens ++ (others.flatMap Argument.written ++ close :: rest)) (state.depth + 1)
      (state.nodes + 1)).head = first := by rw [same]; rfl
  rw [← arguments_of_starts (by rw [atFirst]; exact begins)] at read
  rw [bind_of_ok read]
  rw [bind_of_ok (next_of_cons rfl (by rw [closeKind]; simp)), closeKind]
  show Except.ok (_, _) = _
  congr 1
  simp only [behind, nodes, List.nil_append, Prod.mk.injEq, ParserState.mk.injEq, true_and]
  omega

theorem reads_of_derives {level : Nat} {tokens : List (Token N)} {node : SyntaxNode N}
    (derived : Derives level tokens node) (low : 1 ≤ level) :
    Reads limits level tokens node ∧ (level ≤ 4 → Extends limits level tokens node) := by
  have fromExtends : ∀ {level : Nat} {tokens : List (Token N)} {node : SyntaxNode N},
      Extends limits level tokens node → Reads limits level tokens node ∧ (level ≤ 4 → Extends limits level tokens node) :=
    fun extended => ⟨reads_of_extends extended, fun _ => extended⟩
  have primaries : ∀ {tokens : List (Token N)} {node : SyntaxNode N}, Reads limits Level.primary tokens node →
      Reads limits Level.primary tokens node ∧ (Level.primary ≤ 4 → Extends limits Level.primary tokens node) :=
    fun reads => ⟨reads, fun high => absurd high (by decide)⟩
  induction derived with
  | @tighter level tokens node below inner ih =>
    have read := (ih (by omega)).1
    by_cases high : level ≤ 4
    · exact fromExtends (extends_of_reads low high read)
    · have isUnary : level = Level.unary := by
        show level = 5
        have : level < 6 := below
        omega
      subst isUnary
      exact ⟨reads_of_primary inner read, fun impossible => absurd impossible high⟩
  | @binary level operator token left right leftNode rightNode kind atLevel _ _ leftIh rightIh =>
    have high : level ≤ 4 := by rw [← atLevel]; cases operator <;> decide
    exact fromExtends (extends_binary kind atLevel ((leftIh low).2 high) (rightIh (by omega)).1)
  | unary signed _ ih => exact ⟨reads_unary signed (ih (by decide)).1, fun high => absurd high (by decide)⟩
  | number kind => exact primaries (reads_number kind)
  | string kind => exact primaries (reads_string kind)
  | braced kind named => exact primaries (reads_braced kind named)
  | word kind => exact primaries (reads_word kind)
  | member nameKind dotKind memberKind _ => exact primaries (reads_member nameKind dotKind memberKind)
  | paren openKind _ closeKind ih => exact primaries (reads_paren openKind (ih (by decide)).1 closeKind)
  | constant nameKind openKind closeKind => exact primaries (reads_constant nameKind openKind closeKind)
  | call nameKind openKind inner commas derivedAll closeKind ih ihAll =>
    exact primaries (reads_call nameKind openKind inner (ih (by decide)).1 commas derivedAll
      (fun other member => (ihAll other member (by decide)).1) closeKind)

theorem parseTokens_of_derives {tokens : List (Token N)} {stop : Token N} {node : SyntaxNode N}
    (derived : Derives Level.comparison tokens node) (isEnd : stop.kind = .eof)
    (few : exceeds (nodes node) limits.maxNodes = false) (shallow : exceeds (nesting node) limits.maxNesting = false) :
    parseTokens limits (tokens ++ [stop]) = .ok node := by
  rcases derived.head with ⟨first, rest, same, begins, _⟩
  have stops : Stops Level.comparison stop :=
    ⟨by rw [isEnd]; simp, by rw [isEnd]; simp, by rw [isEnd]; simp⟩
  have reads : Reads limits Level.comparison tokens node := (reads_of_derives derived (Nat.le_refl _)).1
  have read := reads ((tokens ++ [stop]).length + 1)
    ((tokens ++ [stop]).length + 1) [stop] ⟨tokens ++ [stop], 0, 0⟩ rfl stops
    (by rw [List.length_append]; omega) (by rw [List.length_append]; omega)
    ⟨by rw [Nat.zero_add]; exact few, by rw [Nat.zero_add]; exact shallow⟩
  have atFirst : (ParserState.mk (tokens ++ [stop]) 0 0).head = first := by rw [same]; rfl
  have whole : parse limits ((tokens ++ [stop]).length + 1) ⟨tokens ++ [stop], 0, 0⟩ =
      .ok (node, behind ⟨tokens ++ [stop], 0, 0⟩ [stop] node) := by
    rw [parse, peek_bind, atFirst]
    cases kind : first.kind with
    | eof => rw [starts, kind] at begins; cases begins
    | _ =>
      refine (bind_of_ok read).trans ?_
      rw [peek_bind, head_cons rfl, isEnd]
      rfl
  rw [parseTokens, whole]
  rfl

theorem derives_unique {tokens : List (Token N)} {first second : SyntaxNode N}
    (firstDerived : Derives Level.comparison tokens first) (secondDerived : Derives Level.comparison tokens second) :
    first = second := by
  have firstRead : parseTokens noLimits (tokens ++ [endToken]) = .ok first :=
    parseTokens_of_derives firstDerived rfl rfl rfl
  have secondRead : parseTokens noLimits (tokens ++ [endToken]) = .ok second :=
    parseTokens_of_derives secondDerived rfl rfl rfl
  rw [firstRead] at secondRead
  exact Except.ok.inj secondRead

end Reading

end OpenShapeForge.Formula.ParserComplete
