import OpenShapeForge.Formula.ParserComplete

/-! What the parser accepts, the grammar derives, within the limits. -/

namespace OpenShapeForge.Formula.ParserSound
open Js Types Tokens SyntaxTree Grammar ParserComplete

section Steps
variable {N α β : Type} {limits : ParserLimits}

theorem ok_of_bind {first : Parse N α} {next : α → Parse N β} {state : ParserState N} {result : β × ParserState N}
    (done : (first >>= next) state = .ok result) :
    ∃ value middle, first state = .ok (value, middle) ∧ next value middle = .ok result := by
  change andThen first next state = _ at done
  unfold andThen at done
  split at done
  · contradiction
  case h_2 value middle same => exact ⟨value, middle, same, done⟩

theorem cons_of_next {state after : ParserState N} {token : Token N} (done : next state = .ok (token, after))
    (inside : token.kind ≠ .eof) :
    state.tokens = token :: after.tokens ∧ after.depth = state.depth ∧ after.nodes = state.nodes := by
  unfold next at done
  split at done
  case h_1 isEnd =>
    rw [Except.ok.injEq, Prod.mk.injEq] at done
    rw [← done.1] at inside
    exact absurd isEnd inside
  case h_2 =>
    rw [Except.ok.injEq, Prod.mk.injEq] at done
    rcases done with ⟨rfl, rfl⟩
    refine ⟨?_, rfl, rfl⟩
    cases written : state.tokens with
    | nil =>
      rw [ParserState.head, written] at inside
      exact absurd rfl inside
    | cons first rest =>
      rw [head_cons written]
      rfl

theorem token_of_next {state after : ParserState N} {token : Token N} (done : next state = .ok (token, after)) :
    token = state.head := by
  unfold next at done
  split at done
  · cases done
    rfl
  · cases done
    rfl

theorem fits_of_count {state after : ParserState N} {token : Token N} (done : count limits token state = .ok ((), after)) :
    after = { state with nodes := state.nodes + 1 } ∧ exceeds (state.nodes + 1) limits.maxNodes = false := by
  unfold count at done
  split at done
  · cases done
  case isFalse fits =>
    rw [Except.ok.injEq, Prod.mk.injEq] at done
    exact ⟨done.2.symm, Bool.eq_false_iff.mpr fits⟩

theorem fits_of_enter {state after : ParserState N} {token : Token N} (done : enter limits token state = .ok ((), after)) :
    after = { state with depth := state.depth + 1 } ∧ exceeds (state.depth + 1) limits.maxNesting = false := by
  unfold enter at done
  split at done
  · cases done
  case isFalse fits =>
    rw [Except.ok.injEq, Prod.mk.injEq] at done
    exact ⟨done.2.symm, Bool.eq_false_iff.mpr fits⟩

theorem exceeds_add_max {base first second : Nat} {limit : Option Nat} (firstFits : exceeds (base + first) limit = false)
    (secondFits : exceeds (base + second) limit = false) : exceeds (base + max first second) limit = false := by
  rcases Nat.le_total first second with smaller | smaller
  · rw [Nat.max_eq_right smaller]
    exact secondFits
  · rw [Nat.max_eq_left smaller]
    exact firstFits

end Steps

section Soundness
variable {N : Type} [Unicode] (limits : ParserLimits)

structure Parsed (level : Nat) (state : ParserState N) (node : SyntaxNode N) (after : ParserState N) : Prop where
  derived : ∃ tokens, state.tokens = tokens ++ after.tokens ∧ Derives level tokens node
  depth : after.depth = state.depth
  counted : after.nodes = state.nodes + nodes node
  few : exceeds after.nodes limits.maxNodes = false
  shallow : exceeds state.depth limits.maxNesting = false → exceeds (state.depth + nesting node) limits.maxNesting = false

def Sound (level : Nat) (parser : Parse N (SyntaxNode N)) : Prop :=
  ∀ state node after, parser state = .ok (node, after) → Parsed limits level state node after

variable {limits}

theorem Parsed.tighter {level : Nat} {state after : ParserState N} {node : SyntaxNode N}
    (parsed : Parsed limits (level + 1) state node after) (below : level < Level.primary) :
    Parsed limits level state node after := by
  rcases parsed.derived with ⟨tokens, written, derived⟩
  exact ⟨⟨tokens, written, .tighter below derived⟩, parsed.depth, parsed.counted, parsed.few, parsed.shallow⟩

theorem extend {level : Nat} {operator : BinaryOperator} {start state afterToken afterCount after : ParserState N}
    {left right : SyntaxNode N} {token : Token N} (parsed : Parsed limits level start left state)
    (isHead : token = state.head) (kind : token.kind = .operator operator) (atLevel : levelOf operator = level)
    (tokenRead : next state = .ok (token, afterToken)) (counted : count limits state.head afterToken = .ok ((), afterCount))
    (rightParsed : Parsed limits (level + 1) afterCount right after) :
    Parsed limits level start
      (.binary operator state.head.span.start left right ⟨left.span.start, right.span.stop⟩) after := by
  rcases cons_of_next tokenRead (by rw [kind]; simp) with ⟨written, sameDepth, sameNodes⟩
  rcases fits_of_count counted with ⟨rfl, _⟩
  rcases parsed.derived with ⟨leftTokens, leftWritten, leftDerived⟩
  rcases rightParsed.derived with ⟨rightTokens, rightWritten, rightDerived⟩
  have leftDepth := parsed.depth
  have leftCounted := parsed.counted
  have rightDepth := rightParsed.depth
  have rightCounted := rightParsed.counted
  have rightShallow := rightParsed.shallow
  simp only at rightWritten rightDepth rightCounted rightShallow
  refine ⟨⟨leftTokens ++ token :: rightTokens, ?_, ?_⟩, by omega, by simp only [nodes]; omega, rightParsed.few, ?_⟩
  · rw [leftWritten, written, rightWritten, List.append_assoc, List.cons_append]
  · rw [← isHead]
    exact .binary kind atLevel leftDerived rightDerived
  · intro fits
    rw [sameDepth, leftDepth] at rightShallow
    exact exceeds_add_max (parsed.shallow fits) (rightShallow fits)

theorem binaryRest_sound {level : Nat} {operand : Parse N (SyntaxNode N)} (sound : Sound limits (level + 1) operand)
    (start : ParserState N) : ∀ (loops : Nat) (left node : SyntaxNode N) (state after : ParserState N),
      Parsed limits level start left state →
      binaryRest limits (isLevel level) operand loops left state = .ok (node, after) →
      Parsed limits level start node after := by
  intro loops
  induction loops with
  | zero =>
    intro left node state after parsed done
    cases done
  | succ loops ih =>
    intro left node state after parsed done
    rw [binaryRest, peek_bind] at done
    cases found : operatorOf state.head with
    | none =>
      rw [found] at done
      cases done
      exact parsed
    | some operator =>
      rw [found] at done
      change (if isLevel level operator = true then _ else _ : Parse N (SyntaxNode N)) state = _ at done
      by_cases chosen : isLevel level operator = true
      · rw [if_pos chosen] at done
        rcases ok_of_bind done with ⟨token, afterToken, tokenRead, done⟩
        rcases ok_of_bind done with ⟨_, afterCount, counted, done⟩
        rcases ok_of_bind done with ⟨right, afterRight, rightRead, done⟩
        have isHead := token_of_next tokenRead
        have kind : token.kind = .operator operator := isHead ▸ kind_of_operatorOf found
        exact ih _ node afterRight after (extend parsed isHead kind (of_decide_eq_true chosen) tokenRead counted
          (sound _ _ _ rightRead)) done
      · rw [if_neg chosen] at done
        cases done
        exact parsed

theorem binaryLevel_sound {level : Nat} {operand : Parse N (SyntaxNode N)} (below : level < Level.primary)
    (sound : Sound limits (level + 1) operand) (loops : Nat) :
    Sound limits level (binaryLevel limits (isLevel level) operand loops) := by
  intro state node after done
  rcases ok_of_bind done with ⟨left, middle, leftRead, rest⟩
  exact binaryRest_sound sound state loops left node middle after ((sound _ _ _ leftRead).tighter below) rest

theorem levelParser_sound {fuel loops : Nat} (sound : Sound (N := N) limits Level.unary (unary limits fuel)) :
    Sound (N := N) limits Level.comparison (levelParser limits fuel loops Level.comparison) := by
  have step : ∀ level, 1 ≤ level → level ≤ 4 →
      Sound (N := N) limits (level + 1) (levelParser limits fuel loops (level + 1)) →
      Sound (N := N) limits level (levelParser limits fuel loops level) := by
    intro level low high tighter
    rw [levelParser_binary limits fuel loops low high]
    exact binaryLevel_sound (by show level < 6; omega) tighter loops
  exact step 1 (by omega) (by omega) (step 2 (by omega) (by omega)
    (step 3 (by omega) (by omega) (step 4 (by omega) (by omega) sound)))

theorem parsed_leaf {state after : ParserState N} {token : Token N} {node : SyntaxNode N}
    (written : state.tokens = token :: after.tokens) (sameDepth : after.depth = state.depth)
    (sameNodes : after.nodes = state.nodes + 1) (fits : exceeds after.nodes limits.maxNodes = false)
    (derived : Derives Level.primary [token] node) (one : nodes node = 1) (flat : nesting node = 0) :
    Parsed limits Level.primary state node after :=
  ⟨⟨[token], written, derived⟩, sameDepth, by rw [one, sameNodes], fits, fun base => by rw [flat]; exact base⟩

variable (limits) in
/-- The arguments of a call, read from one state to another. -/
structure ParsedArgs (state : ParserState N) (args : List (SyntaxNode N)) (after : ParserState N) : Prop where
  derived : ∃ (tokens : List (Token N)) (arg : SyntaxNode N) (others : List (Argument N)), args = arg :: others.map Argument.tree ∧
    state.tokens = tokens ++ (others.flatMap Argument.written ++ after.tokens) ∧ Derives Level.comparison tokens arg ∧
    (∀ other ∈ others, other.comma.kind = .comma) ∧ ∀ other ∈ others, Derives Level.comparison other.tokens other.tree
  depth : after.depth = state.depth
  counted : after.nodes = state.nodes + nodesAll args
  few : exceeds after.nodes limits.maxNodes = false
  shallow : exceeds state.depth limits.maxNesting = false →
    exceeds (state.depth + nestingAll args) limits.maxNesting = false

theorem parsedArgs_one {state after : ParserState N} {arg : SyntaxNode N}
    (parsed : Parsed limits Level.comparison state arg after) : ParsedArgs limits state [arg] after := by
  rcases parsed.derived with ⟨tokens, written, derived⟩
  refine ⟨⟨tokens, arg, [], rfl, written, derived, by simp, by simp⟩, parsed.depth, ?_, parsed.few, ?_⟩
  · rw [parsed.counted, nodesAll, nodesAll, Nat.add_zero]
  · intro base
    rw [nestingAll, nestingAll, Nat.max_zero]
    exact parsed.shallow base

theorem parsedArgs_more {state afterArg afterComma after : ParserState N} {arg : SyntaxNode N} {comma : Token N}
    {args : List (SyntaxNode N)} (parsed : Parsed limits Level.comparison state arg afterArg)
    (isComma : comma.kind = .comma) (commaRead : next afterArg = .ok (comma, afterComma))
    (later : ParsedArgs limits afterComma args after) : ParsedArgs limits state (arg :: args) after := by
  rcases cons_of_next commaRead (by rw [isComma]; simp) with ⟨commaWritten, sameDepth, sameNodes⟩
  rcases parsed.derived with ⟨tokens, written, derived⟩
  rcases later.derived with ⟨nextTokens, nextArg, others, same, laterWritten, laterDerived, commas, derivedAll⟩
  have argDepth := parsed.depth
  have argCounted := parsed.counted
  have laterDepth := later.depth
  have laterCounted := later.counted
  refine ⟨⟨tokens, arg, ⟨comma, nextTokens, nextArg⟩ :: others, by rw [same]; rfl, ?_, derived, ?_, ?_⟩, by omega,
    by rw [nodesAll]; omega, later.few, ?_⟩
  · rw [written, commaWritten, laterWritten, List.flatMap_cons, Argument.written, List.append_assoc]
    rfl
  · intro other member
    rcases List.mem_cons.mp member with isFirst | inRest
    · rw [isFirst]
      exact isComma
    · exact commas other inRest
  · intro other member
    rcases List.mem_cons.mp member with isFirst | inRest
    · rw [isFirst]
      exact laterDerived
    · exact derivedAll other inRest
  · intro base
    have deeper := later.shallow
    rw [sameDepth, argDepth] at deeper
    rw [nestingAll]
    exact exceeds_add_max (parsed.shallow base) (deeper base)

theorem callArgs_sound {expression : Parse N (SyntaxNode N)} (sound : Sound limits Level.comparison expression) :
    ∀ (loops : Nat) (before args : List (SyntaxNode N)) (state after : ParserState N),
      callArgs expression loops before state = .ok (args, after) →
      ∃ found, args = before ++ found ∧ ParsedArgs limits state found after := by
  intro loops
  induction loops with
  | zero =>
    intro before args state after done
    cases done
  | succ loops ih =>
    intro before args state after done
    rw [callArgs, peek_bind] at done
    change (if isClosing state.head = true then _ else _ : Parse N (List (SyntaxNode N))) state = _ at done
    by_cases closing : isClosing state.head = true
    · rw [if_pos closing] at done
      cases done
    · rw [if_neg closing] at done
      rcases ok_of_bind done with ⟨arg, afterArg, argRead, done⟩
      have parsed := sound _ _ _ argRead
      rcases parsed.derived with ⟨tokens, written, derived⟩
      rw [peek_bind] at done
      have ends : ∀ result, (finish (before ++ [arg]) : Parse N _) afterArg = .ok (result, after) →
          ∃ found, result = before ++ found ∧ ParsedArgs limits state found after := by
        intro result finished
        cases finished
        exact ⟨[arg], rfl, parsedArgs_one parsed⟩
      cases kind : afterArg.head.kind with
      | comma =>
        rw [kind] at done
        change (next >>= _) afterArg = _ at done
        rcases ok_of_bind done with ⟨comma, afterComma, commaRead, done⟩
        have isComma : comma.kind = .comma := by rw [token_of_next commaRead, kind]
        rcases ih _ _ _ _ done with ⟨found, same, later⟩
        exact ⟨arg :: found, by rw [same, List.append_assoc]; rfl, parsedArgs_more parsed isComma commaRead later⟩
      | _ => exact ends _ (by rw [kind] at done; exact done)

theorem arguments_sound {expression : Parse N (SyntaxNode N)} (sound : Sound limits Level.comparison expression)
    {fuel : Nat} {args : List (SyntaxNode N)} {state after : ParserState N}
    (done : arguments expression fuel state = .ok (args, after)) :
    (args = [] ∧ after = state) ∨ ParsedArgs limits state args after := by
  rw [arguments, peek_bind] at done
  cases kind : state.head.kind with
  | rparen =>
    rw [kind] at done
    cases done
    exact .inl ⟨rfl, rfl⟩
  | _ =>
    rw [kind] at done
    rcases callArgs_sound sound _ _ _ _ _ done with ⟨found, same, parsed⟩
    rw [same]
    exact .inr parsed

theorem call_sound {expression : Parse N (SyntaxNode N)} (sound : Sound limits Level.comparison expression) {fuel : Nat}
    {name : Text} {nameToken : Token N} {state first after : ParserState N} {node : SyntaxNode N}
    (nameKind : nameToken.kind = .identifier name) (openKind : first.head.kind = .lparen)
    (written : state.tokens = nameToken :: first.tokens) (sameDepth : first.depth = state.depth)
    (sameNodes : first.nodes = state.nodes + 1) (fits : exceeds first.nodes limits.maxNodes = false)
    (done : call limits expression fuel name nameToken first = .ok (node, after)) :
    Parsed limits Level.primary state node after := by
  rw [call] at done
  rcases ok_of_bind done with ⟨opening, afterOpening, openRead, done⟩
  have isOpen : opening.kind = .lparen := by rw [token_of_next openRead, openKind]
  rcases cons_of_next openRead (by rw [isOpen]; simp) with ⟨openWritten, openDepth, openNodes⟩
  rcases ok_of_bind done with ⟨_, afterEnter, entered, done⟩
  rcases fits_of_enter entered with ⟨rfl, enterFits⟩
  rcases ok_of_bind done with ⟨args, afterArgs, argsRead, done⟩
  rcases ok_of_bind done with ⟨close, afterClose, closeRead, done⟩
  cases closeKind : close.kind with
  | rparen =>
    rw [closeKind] at done
    cases done
    rcases cons_of_next closeRead (by rw [closeKind]; simp) with ⟨closeWritten, closeDepth, closeNodes⟩
    rcases arguments_sound sound argsRead with ⟨rfl, rfl⟩ | parsed
    · simp only at closeWritten closeDepth closeNodes
      refine ⟨⟨[nameToken, opening, close], ?_, .constant nameKind isOpen closeKind⟩, ?_, ?_, ?_, ?_⟩
      · rw [written, openWritten, closeWritten]
        rfl
      · show afterClose.depth - 1 = _
        omega
      · show afterClose.nodes = state.nodes + (1 + 0)
        omega
      · show exceeds afterClose.nodes _ = _
        rw [closeNodes, openNodes]
        exact fits
      · intro _
        rw [← sameDepth, ← openDepth]
        exact enterFits
    · rcases parsed.derived with ⟨tokens, arg, others, same, argsWritten, derived, commas, derivedAll⟩
      have argsDepth := parsed.depth
      have argsCounted := parsed.counted
      have deeper := parsed.shallow enterFits
      simp only at argsWritten argsDepth argsCounted deeper
      rw [same]
      refine ⟨⟨nameToken :: opening :: tokens ++ others.flatMap Argument.written ++ [close], ?_,
        .call nameKind isOpen derived commas derivedAll closeKind⟩, ?_, ?_, ?_, ?_⟩
      · rw [written, openWritten, argsWritten, closeWritten]
        simp
      · show afterClose.depth - 1 = _
        omega
      · show afterClose.nodes = state.nodes + (1 + nodesAll (arg :: others.map Argument.tree))
        rw [← same]
        omega
      · show exceeds afterClose.nodes _ = _
        rw [closeNodes]
        exact parsed.few
      · intro _
        show exceeds (state.depth + (nestingAll (arg :: others.map Argument.tree) + 1)) _ = _
        rw [← same]
        exact exceeds_mono (by omega) deeper
  | _ => rw [closeKind] at done; cases done

theorem member_sound {name : Text} {nameToken : Token N} {state first after : ParserState N} {node : SyntaxNode N}
    (nameKind : nameToken.kind = .identifier name) (dotKind : first.head.kind = .dot)
    (written : state.tokens = nameToken :: first.tokens) (sameDepth : first.depth = state.depth)
    (sameNodes : first.nodes = state.nodes + 1) (fits : exceeds first.nodes limits.maxNodes = false)
    (done : member name nameToken first = .ok (node, after)) : Parsed limits Level.primary state node after := by
  rw [member] at done
  rcases ok_of_bind done with ⟨dot, afterDot, dotRead, done⟩
  have isDot : dot.kind = .dot := by rw [token_of_next dotRead, dotKind]
  rcases cons_of_next dotRead (by rw [isDot]; simp) with ⟨dotWritten, dotDepth, dotNodes⟩
  rcases ok_of_bind done with ⟨token, afterToken, tokenRead, done⟩
  cases found : memberName token with
  | none => rw [found] at done; cases done
  | some pair =>
    rcases pair with ⟨field, braced⟩
    have inside : token.kind ≠ .eof := by
      intro isEnd
      rw [memberName, isEnd] at found
      cases found
    rcases cons_of_next tokenRead inside with ⟨tokenWritten, tokenDepth, tokenNodes⟩
    rw [found] at done
    change (peek >>= _) afterToken = _ at done
    rw [peek_bind] at done
    have ends : ∀ result, (pure (.field field braced (some ⟨name, nameToken.span⟩) ⟨nameToken.span.start, token.span.stop⟩) :
        Parse N (SyntaxNode N)) afterToken = .ok (result, after) → Parsed limits Level.primary state result after := by
      intro result finished
      cases finished
      refine ⟨⟨[nameToken, dot, token], ?_, .member nameKind isDot found trivial⟩, by omega, by simp only [nodes]; omega, ?_, ?_⟩
      · rw [written, dotWritten, tokenWritten]
        rfl
      · rw [tokenNodes, dotNodes]
        exact fits
      · intro base
        exact base
    cases kind : afterToken.head.kind with
    | dot => rw [kind] at done; cases done
    | _ => exact ends _ (by rw [kind] at done; exact done)

theorem identifier_sound {expression : Parse N (SyntaxNode N)} (sound : Sound limits Level.comparison expression)
    {fuel : Nat} {name : Text} {nameToken : Token N} {state first after : ParserState N} {node : SyntaxNode N}
    (nameKind : nameToken.kind = .identifier name) (written : state.tokens = nameToken :: first.tokens)
    (sameDepth : first.depth = state.depth) (sameNodes : first.nodes = state.nodes + 1)
    (fits : exceeds first.nodes limits.maxNodes = false)
    (done : identifier limits expression fuel name nameToken first = .ok (node, after)) :
    Parsed limits Level.primary state node after := by
  rw [identifier, peek_bind] at done
  have ends : ∀ result, (pure (wordOf name nameToken.span) : Parse N (SyntaxNode N)) first = .ok (result, after) →
      Parsed limits Level.primary state result after := by
    intro result finished
    cases finished
    refine ⟨⟨[nameToken], written, .word nameKind⟩, sameDepth, by rw [nodes_wordOf, sameNodes], fits, ?_⟩
    intro base
    rw [nesting_wordOf]
    exact base
  cases kind : first.head.kind with
  | lparen =>
    rw [kind] at done
    exact call_sound sound nameKind kind written sameDepth sameNodes fits done
  | dot =>
    rw [kind] at done
    exact member_sound nameKind kind written sameDepth sameNodes fits done
  | _ => exact ends _ (by rw [kind] at done; exact done)

theorem paren_sound {expression : Parse N (SyntaxNode N)} (sound : Sound limits Level.comparison expression)
    {opening : Token N} {state first after : ParserState N} {node : SyntaxNode N} {fuel : Nat}
    (openKind : opening.kind = .lparen) (written : state.tokens = opening :: first.tokens)
    (sameDepth : first.depth = state.depth) (sameNodes : first.nodes = state.nodes + 1)
    (done : primaryOf limits expression fuel opening first = .ok (node, after)) :
    Parsed limits Level.primary state node after := by
  rw [primaryOf, openKind] at done
  rcases ok_of_bind done with ⟨_, afterEnter, entered, done⟩
  rcases fits_of_enter entered with ⟨rfl, enterFits⟩
  rcases ok_of_bind done with ⟨inner, afterInner, innerRead, done⟩
  have parsed := sound _ _ _ innerRead
  rcases ok_of_bind done with ⟨close, afterClose, closeRead, done⟩
  cases closeKind : close.kind with
  | rparen =>
    rw [closeKind] at done
    cases done
    rcases cons_of_next closeRead (by rw [closeKind]; simp) with ⟨closeWritten, closeDepth, closeNodes⟩
    rcases parsed.derived with ⟨tokens, innerWritten, derived⟩
    have innerDepth := parsed.depth
    have innerCounted := parsed.counted
    have deeper := parsed.shallow enterFits
    simp only at innerWritten innerDepth innerCounted deeper
    refine ⟨⟨opening :: tokens ++ [close], ?_, .paren openKind derived closeKind⟩, ?_, ?_, ?_, ?_⟩
    · rw [written, innerWritten, closeWritten]
      simp
    · show afterClose.depth - 1 = _
      omega
    · show afterClose.nodes = state.nodes + (1 + nodes inner)
      omega
    · show exceeds afterClose.nodes _ = _
      rw [closeNodes]
      exact parsed.few
    · intro _
      exact exceeds_mono (by simp only [nesting]; omega) deeper
  | _ => rw [closeKind] at done; cases done

theorem primary_sound {expression : Parse N (SyntaxNode N)} (sound : Sound limits Level.comparison expression) (fuel : Nat) :
    Sound limits Level.primary (primary limits expression fuel) := by
  intro state node after done
  rw [primary] at done
  rcases ok_of_bind done with ⟨token, afterToken, tokenRead, done⟩
  rcases ok_of_bind done with ⟨_, first, counted, done⟩
  have begins : token.kind ≠ .eof → state.tokens = token :: first.tokens ∧ first.depth = state.depth ∧
      first.nodes = state.nodes + 1 ∧ exceeds first.nodes limits.maxNodes = false := by
    intro inside
    rcases cons_of_next tokenRead inside with ⟨written, sameDepth, sameNodes⟩
    rcases fits_of_count counted with ⟨rfl, fits⟩
    exact ⟨written, sameDepth, congrArg (· + 1) sameNodes, fits⟩
  have leaf : ∀ leafNode, token.kind ≠ .eof → Derives Level.primary [token] leafNode → nodes leafNode = 1 →
      nesting leafNode = 0 → Parsed limits Level.primary state leafNode first := by
    intro leafNode inside derived one flat
    rcases begins inside with ⟨written, sameDepth, sameNodes, fits⟩
    exact parsed_leaf written sameDepth sameNodes fits derived one flat
  cases kind : token.kind with
  | number value =>
    rw [primaryOf, kind] at done
    cases done
    exact leaf _ (by rw [kind]; simp) (.number kind) rfl rfl
  | string value terminated =>
    rw [primaryOf, kind] at done
    cases terminated with
    | true =>
      cases done
      exact leaf _ (by rw [kind]; simp) (.string kind) rfl rfl
    | false => cases done
  | field name terminated =>
    rw [primaryOf, kind] at done
    cases terminated with
    | true =>
      change (if trim name = [] then _ else _ : Parse N (SyntaxNode N)) _ = _ at done
      by_cases blank : trim name = []
      · rw [if_pos blank] at done
        cases done
      · rw [if_neg blank] at done
        cases done
        exact leaf _ (by rw [kind]; simp) (.braced kind blank) rfl rfl
    | false => cases done
  | lparen =>
    rcases begins (by rw [kind]; simp) with ⟨written, sameDepth, sameNodes, _⟩
    exact paren_sound sound kind written sameDepth sameNodes done
  | identifier name =>
    rcases begins (by rw [kind]; simp) with ⟨written, sameDepth, sameNodes, fits⟩
    rw [primaryOf, kind] at done
    exact identifier_sound sound kind written sameDepth sameNodes fits done
  | _ => rw [primaryOf, kind] at done; cases done

theorem unary_step {fuel : Nat} (sound : Sound (N := N) limits Level.unary (unary limits fuel)) {sign : Sign} {state after : ParserState N}
    {node : SyntaxNode N} (signed : signOf state.head = some sign)
    (done : unary limits (fuel + 1) state = .ok (node, after)) : Parsed limits Level.unary state node after := by
  rw [unary, peek_bind, signed] at done
  rcases ok_of_bind done with ⟨token, afterToken, tokenRead, done⟩
  have isHead := token_of_next tokenRead
  rcases cons_of_next tokenRead (by rw [isHead]; exact sign_inside signed) with ⟨written, sameDepth, sameNodes⟩
  rcases ok_of_bind done with ⟨_, afterEnter, entered, done⟩
  rcases fits_of_enter entered with ⟨rfl, enterFits⟩
  rcases ok_of_bind done with ⟨operand, afterOperand, operandRead, done⟩
  have parsed := sound _ _ _ operandRead
  cases done
  rcases parsed.derived with ⟨tokens, operandWritten, derived⟩
  have operandDepth := parsed.depth
  have operandCounted := parsed.counted
  have deeper := parsed.shallow enterFits
  simp only at operandWritten operandDepth operandCounted deeper
  refine ⟨⟨state.head :: tokens, ?_, .unary signed derived⟩, ?_, ?_, parsed.few, ?_⟩
  · rw [written, operandWritten, isHead]
    rfl
  · show afterOperand.depth - 1 = _
    omega
  · show afterOperand.nodes = state.nodes + nodes operand
    omega
  · intro _
    exact exceeds_mono (by simp only [nesting]; omega) deeper

theorem unary_sound (fuel : Nat) : Sound (N := N) limits Level.unary (unary limits fuel) := by
  induction fuel with
  | zero =>
    intro state node after done
    cases done
  | succ fuel ih =>
    intro state node after done
    cases signed : signOf state.head with
    | some sign => exact unary_step ih signed done
    | none =>
      rw [unary, peek_bind, signed] at done
      exact (primary_sound (levelParser_sound ih) _ _ _ _ done).tighter (by decide)

def parseEnd (node : SyntaxNode N) : Parse N (SyntaxNode N) := do
  let rest ← peek
  match rest.kind with
  | .eof => return node
  | _ => fail (js "Unexpected " ++ describe rest ++ js "; expected an operator or the end of the formula") rest.span

theorem derives_of_parseTokens {tokens : List (Token N)} {node : SyntaxNode N}
    (accepted : parseTokens limits tokens = .ok node) :
    ∃ body rest, tokens = body ++ rest ∧ (rest.headD endToken).kind = .eof ∧ Derives Level.comparison body node ∧
      exceeds (nodes node) limits.maxNodes = false ∧ exceeds (nesting node) limits.maxNesting = false := by
  rw [parseTokens] at accepted
  cases done : parse limits (tokens.length + 1) ⟨tokens, 0, 0⟩ with
  | error stop => rw [done] at accepted; cases accepted
  | ok result =>
    rw [done] at accepted
    rcases result with ⟨found, after⟩
    cases accepted
    have body : (comparison limits (unary limits (tokens.length + 1)) (tokens.length + 1) >>= parseEnd) ⟨tokens, 0, 0⟩ = .ok (found, after) := by
      rw [parse, peek_bind] at done
      cases kind : (ParserState.mk tokens 0 0).head.kind with
      | eof => rw [kind] at done; cases done
      | _ => rw [kind] at done; exact done
    rcases ok_of_bind body with ⟨read, afterRead, nodeRead, finished⟩
    rw [parseEnd, peek_bind] at finished
    have sound : Sound limits Level.comparison (levelParser limits (tokens.length + 1) (tokens.length + 1) Level.comparison) :=
      levelParser_sound (unary_sound (N := N) (tokens.length + 1))
    have parsed := sound _ _ _ nodeRead
    rcases parsed.derived with ⟨consumed, written, derived⟩
    have shallow := parsed.shallow (by cases limits.maxNesting <;> simp [exceeds])
    have few := parsed.few
    rw [parsed.counted] at few
    rw [Nat.zero_add] at shallow few
    cases kind : afterRead.head.kind with
    | eof =>
      rw [kind] at finished
      cases finished
      exact ⟨consumed, after.tokens, written, kind, derived, few, shallow⟩
    | _ => rw [kind] at finished; cases finished

end Soundness

end OpenShapeForge.Formula.ParserSound
