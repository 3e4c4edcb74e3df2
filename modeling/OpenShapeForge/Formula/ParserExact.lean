import OpenShapeForge.Js.Whole
import OpenShapeForge.Formula.PlainTree

/-! Which texts the parser accepts, and the tree it gives: the documented grammar
within the limits, but for a name behind a relation that is blank in its braces. -/

namespace OpenShapeForge.Formula.ParserExact
open Js Types Tokens SyntaxTree Grammar Lexing ParserComplete ParserSound PlainTree

section Blank
variable {N : Type} [Unicode]

mutual
/-- Whether a tree holds a blank name in braces behind a relation. -/
def blankMember : SyntaxNode N → Bool
  | .number _ _ | .string _ _ | .boolean _ _ => false
  | .field name braced relation _ => relation.isSome && braced && decide (trim name = [])
  | .call _ _ args _ => blankMembers args
  | .unary _ operand _ => blankMember operand
  | .binary _ _ left right _ => blankMember left || blankMember right
  | .paren inner _ => blankMember inner

def blankMembers : List (SyntaxNode N) → Bool
  | [] => false
  | arg :: rest => blankMember arg || blankMembers rest
end

omit [Unicode] in
theorem blankMembers_eq (args : List (SyntaxNode N)) : blankMembers args = args.any blankMember := by
  induction args with
  | nil => rfl
  | cons arg rest ih => rw [blankMembers, ih, List.any_cons]

theorem blankMember_wordOf (name : Text) (span : Span) : blankMember (wordOf name span : SyntaxNode N) = false := by
  unfold wordOf
  split
  · rfl
  · split <;> rfl

theorem derives_of_documented {level : Nat} {tokens : List (Token N)} {node : SyntaxNode N}
    (derived : Documented level tokens node) : Derives level tokens node ∧ blankMember node = false := by
  induction derived with
  | tighter below _ ih => exact ⟨.tighter below ih.1, ih.2⟩
  | binary kind atLevel _ _ leftIh rightIh =>
    exact ⟨.binary kind atLevel leftIh.1 rightIh.1, by rw [blankMember, leftIh.2, rightIh.2]; rfl⟩
  | unary signed _ ih => exact ⟨.unary signed ih.1, ih.2⟩
  | number kind => exact ⟨.number kind, rfl⟩
  | string kind => exact ⟨.string kind, rfl⟩
  | braced kind named => exact ⟨.braced kind named, rfl⟩
  | word kind => exact ⟨.word kind, blankMember_wordOf _ _⟩
  | @member _ _ _ _ field braced nameKind dotKind found named =>
    refine ⟨.member nameKind dotKind found trivial, ?_⟩
    cases braced with
    | false => rfl
    | true =>
      rw [blankMember, decide_eq_false (named rfl)]
      rfl
  | paren openKind _ closeKind ih => exact ⟨.paren openKind ih.1 closeKind, ih.2⟩
  | constant nameKind openKind closeKind => exact ⟨.constant nameKind openKind closeKind, rfl⟩
  | @call _ _ _ _ _ arg others nameKind openKind _ commas _ closeKind ih ihAll =>
    refine ⟨.call nameKind openKind ih.1 commas (fun other member => (ihAll other member).1) closeKind, ?_⟩
    rw [blankMember, blankMembers, ih.2, blankMembers_eq, Bool.false_or, List.any_eq_false]
    intro tree member
    rcases List.mem_map.mp member with ⟨other, inside, rfl⟩
    rw [(ihAll other inside).2]
    exact Bool.false_ne_true

theorem documented_of_derives {level : Nat} {tokens : List (Token N)} {node : SyntaxNode N}
    (derived : Derives level tokens node) (named : blankMember node = false) : Documented level tokens node := by
  induction derived with
  | tighter below _ ih => exact .tighter below (ih named)
  | binary kind atLevel _ _ leftIh rightIh =>
    rcases Bool.or_eq_false_iff.mp named with ⟨left, right⟩
    exact .binary kind atLevel (leftIh left) (rightIh right)
  | unary signed _ ih => exact .unary signed (ih named)
  | number kind => exact .number kind
  | string kind => exact .string kind
  | braced kind nonblank => exact .braced kind nonblank
  | word kind => exact .word kind
  | member nameKind dotKind found _ =>
    refine .member nameKind dotKind found fun isBraced => ?_
    subst isBraced
    exact of_decide_eq_false named
  | paren openKind _ closeKind ih => exact .paren openKind (ih named) closeKind
  | constant nameKind openKind closeKind => exact .constant nameKind openKind closeKind
  | @call _ _ _ _ _ arg others nameKind openKind _ commas _ closeKind ih ihAll =>
    rw [blankMember, blankMembers, blankMembers_eq] at named
    rcases Bool.or_eq_false_iff.mp named with ⟨first, later⟩
    refine .call nameKind openKind (ih first) commas (fun other member => ihAll other member ?_) closeKind
    exact Bool.eq_false_iff.mpr (List.any_eq_false.mp later _ (List.mem_map_of_mem member))

end Blank

section Spans
variable {N : Type} [Unicode]

/-- The span of a tree reaches from its first token to its last. -/
def Covers (tokens : List (Token N)) (node : SyntaxNode N) : Prop :=
  ∃ first last, tokens.head? = some first ∧ tokens.getLast? = some last ∧ node.span = ⟨first.span.start, last.span.stop⟩

mutual
/-- A tree and all the trees in it. -/
def subtrees : SyntaxNode N → List (SyntaxNode N)
  | .number value span => [.number value span]
  | .string value span => [.string value span]
  | .boolean value span => [.boolean value span]
  | .field name braced relation span => [.field name braced relation span]
  | .call name nameEnd args span => .call name nameEnd args span :: subtreesAll args
  | .unary sign operand span => .unary sign operand span :: subtrees operand
  | .binary operator start left right span => .binary operator start left right span :: (subtrees left ++ subtrees right)
  | .paren inner span => .paren inner span :: subtrees inner

def subtreesAll : List (SyntaxNode N) → List (SyntaxNode N)
  | [] => []
  | arg :: rest => subtrees arg ++ subtreesAll rest
end

/-- Each tree derives from tokens of its own, which its span covers. -/
def Placed (tokens : List (Token N)) (trees : List (SyntaxNode N)) : Prop :=
  ∀ inner ∈ trees, ∃ before piece after, tokens = before ++ piece ++ after ∧ Derives Level.comparison piece inner ∧
    Covers piece inner

omit [Unicode] in
theorem covers_one {token : Token N} {node : SyntaxNode N} (same : node.span = token.span) : Covers [token] node :=
  ⟨token, token, rfl, rfl, same⟩

omit [Unicode] in
theorem covers_between {opening close : Token N} (tokens : List (Token N)) {node : SyntaxNode N}
    (same : node.span = ⟨opening.span.start, close.span.stop⟩) : Covers (opening :: tokens ++ [close]) node :=
  ⟨opening, close, rfl, by rw [List.getLast?_concat], same⟩

theorem span_wordOf (name : Text) (span : Span) : (wordOf name span : SyntaxNode N).span = span := by
  unfold wordOf
  split
  · rfl
  · split <;> rfl

theorem subtrees_wordOf (name : Text) (span : Span) :
    subtrees (wordOf name span : SyntaxNode N) = [wordOf name span] := by
  unfold wordOf
  split
  · rfl
  · split <;> rfl

theorem covers_of_derives {level : Nat} {tokens : List (Token N)} {node : SyntaxNode N} (derived : Derives level tokens node) :
    Covers tokens node := by
  induction derived with
  | tighter _ _ ih => exact ih
  | @binary _ _ token left right _ _ _ _ _ _ leftIh rightIh =>
    rcases leftIh with ⟨first, _, isFirst, _, leftSpan⟩
    rcases rightIh with ⟨_, last, _, isLast, rightSpan⟩
    refine ⟨first, last, ?_, ?_, ?_⟩
    · rw [List.head?_append, isFirst]
      rfl
    · rw [List.getLast?_append, List.getLast?_cons, isLast]
      rfl
    · rw [SyntaxNode.span, leftSpan, rightSpan]
  | @unary _ token tokens _ _ _ ih =>
    rcases ih with ⟨_, last, _, isLast, span⟩
    exact ⟨token, last, rfl, by rw [List.getLast?_cons, isLast]; rfl, by rw [SyntaxNode.span, span]⟩
  | number _ => exact covers_one rfl
  | string _ => exact covers_one rfl
  | braced _ _ => exact covers_one rfl
  | word _ => exact covers_one (span_wordOf _ _)
  | @member nameToken dot token _ _ _ _ _ _ _ => exact covers_between [dot] rfl
  | paren _ _ _ _ => exact covers_between _ rfl
  | @constant nameToken opening close _ _ _ _ => exact covers_between [opening] rfl
  | @call nameToken opening tokens close _ _ others _ _ _ _ _ _ _ _ =>
    exact covers_between (opening :: tokens ++ others.flatMap Argument.written) rfl

theorem level_le_primary {level : Nat} {tokens : List (Token N)} {node : SyntaxNode N} (derived : Derives level tokens node) :
    level ≤ Level.primary := by
  cases derived with
  | tighter below _ => exact Nat.le_of_lt below
  | @binary _ operator _ _ _ _ _ _ atLevel _ _ =>
    rw [← atLevel]
    cases operator <;> decide
  | _ => decide

theorem Placed.widen {tokens : List (Token N)} {trees : List (SyntaxNode N)} (placed : Placed tokens trees)
    {all : List (Token N)} (before after : List (Token N)) (inside : all = before ++ tokens ++ after) : Placed all trees := by
  intro inner member
  rcases placed inner member with ⟨first, piece, last, same, derived, covered⟩
  exact ⟨before ++ first, piece, last ++ after, by rw [inside, same]; simp only [List.append_assoc], derived, covered⟩

theorem placed_cons {level : Nat} {tokens : List (Token N)} {node : SyntaxNode N} {inner : List (SyntaxNode N)}
    (derived : Derives level tokens node) (low : 1 ≤ level) (placed : Placed tokens inner) : Placed tokens (node :: inner) := by
  intro tree member
  rcases List.mem_cons.mp member with rfl | inside
  · exact ⟨[], tokens, [], by rw [List.nil_append, List.append_nil], derived.loosen low (level_le_primary derived),
      covers_of_derives derived⟩
  · exact placed tree inside

theorem placed_leaf {tokens : List (Token N)} {node : SyntaxNode N} (derived : Derives Level.primary tokens node) :
    Placed tokens [node] :=
  placed_cons derived (by decide) fun _ member => absurd member List.not_mem_nil

omit [Unicode] in
theorem mem_subtreesAll {args : List (SyntaxNode N)} {inner : SyntaxNode N} :
    inner ∈ subtreesAll args ↔ ∃ arg ∈ args, inner ∈ subtrees arg := by
  induction args with
  | nil => simp [subtreesAll]
  | cons arg rest ih => simp [subtreesAll, ih]

theorem placed_of_derives {level : Nat} {tokens : List (Token N)} {node : SyntaxNode N} (derived : Derives level tokens node)
    (low : 1 ≤ level) : Placed tokens (subtrees node) := by
  induction derived with
  | tighter _ _ ih => exact ih (by omega)
  | @binary _ _ token left right _ _ kind atLevel leftDerived rightDerived leftIh rightIh =>
    refine placed_cons (.binary kind atLevel leftDerived rightDerived) low fun inner member => ?_
    rcases List.mem_append.mp member with inLeft | inRight
    · exact (leftIh low).widen [] (token :: right) rfl inner inLeft
    · exact (rightIh (by omega)).widen (left ++ [token]) [] (by simp) inner inRight
  | @unary _ token tokens _ signed inner ih =>
    exact placed_cons (.unary signed inner) low ((ih (by decide)).widen [token] [] (by simp))
  | number kind => exact placed_leaf (.number kind)
  | string kind => exact placed_leaf (.string kind)
  | braced kind named => exact placed_leaf (.braced kind named)
  | word kind =>
    rw [subtrees_wordOf]
    exact placed_leaf (.word kind)
  | member nameKind dotKind found reached => exact placed_leaf (.member nameKind dotKind found reached)
  | @paren opening tokens close _ openKind inner closeKind ih =>
    exact placed_cons (.paren openKind inner closeKind) low
      ((ih (by decide)).widen [opening] [close] (by simp))
  | constant nameKind openKind closeKind => exact placed_leaf (.constant nameKind openKind closeKind)
  | @call nameToken opening tokens close _ arg others nameKind openKind first commas derivedAll closeKind ih ihAll =>
    refine placed_cons (.call nameKind openKind first commas derivedAll closeKind) low fun inner member => ?_
    rcases mem_subtreesAll.mp member with ⟨tree, isArg, inside⟩
    rcases List.mem_cons.mp isArg with rfl | later
    · exact (ih (by decide)).widen [nameToken, opening] (others.flatMap Argument.written ++ [close])
        (by simp) inner inside
    · rcases List.mem_map.mp later with ⟨other, isOther, rfl⟩
      rcases List.append_of_mem isOther with ⟨front, back, rfl⟩
      exact (ihAll other isOther (by decide)).widen
        (nameToken :: opening :: tokens ++ front.flatMap Argument.written ++ [other.comma])
        (back.flatMap Argument.written ++ [close]) (by simp [Argument.written]) inner inside

end Spans

section Formula
variable {N : Type} [JsNumber N] [Unicode]

def Makes (derives : Nat → List (Token N) → SyntaxNode N → Prop) (text : Text) (node : SyntaxNode N) : Prop :=
  ∃ body stop, tokenize text = body ++ [stop] ∧ derives Level.comparison body node ∧ nodes node ≤ 500 ∧ nesting node ≤ 64

def Spanned (text : Text) (node : SyntaxNode N) : Prop :=
  ∃ body stop, tokenize text = body ++ [stop] ∧ Covers body node ∧ Placed body (subtrees node)

theorem makes_unique {text : Text} {first second : SyntaxNode N} (firstMade : Makes Derives text first)
    (secondMade : Makes Derives text second) : first = second := by
  rcases firstMade with ⟨body, stop, whole, derived, _, _⟩
  rcases secondMade with ⟨other, otherStop, otherWhole, otherDerived, _, _⟩
  rw [whole] at otherWhole
  rcases List.append_inj' otherWhole rfl with ⟨rfl, _⟩
  exact derives_unique derived otherDerived

omit [JsNumber N] [Unicode] in
theorem exceeds_false {count limit : Nat} : exceeds count (some limit) = false ↔ count ≤ limit := by
  rw [exceeds, decide_eq_false_iff_not, Nat.not_lt]

theorem parseFormula_iff {text : Text} (short : text.length ≤ maxFormulaLength) (node : SyntaxNode N) :
    parseFormula defaultLimits text = .ok node ↔ Makes Derives text node := by
  have inLength : exceeds text.length defaultLimits.maxLength = false := exceeds_false.mpr short
  rw [parseFormula, if_neg (Bool.eq_false_iff.mp inLength)]
  rcases kindsOf_end (N := N) text with ⟨front, ends, inside⟩
  constructor
  · intro accepted
    rcases derives_of_parseTokens accepted with ⟨body, rest, whole, isEnd, derived, few, shallow⟩
    rw [kindsOf, whole, List.map_append] at ends
    have same : body.map Token.kind = front := by
      refine append_end_inj ends (eof_not_mem_of_derives derived) inside fun head isHead => ?_
      rcases rest with _ | ⟨token, rest⟩
      · cases isHead
      · cases isHead
        exact isEnd
    have single : (rest.map Token.kind).length = 1 := by
      rw [same] at ends
      rw [List.append_cancel_left ends]
      rfl
    rcases List.length_eq_one_iff.mp ((List.length_map _).symm.trans single) with ⟨stop, rfl⟩
    exact ⟨body, stop, whole, derived, exceeds_false.mp few, exceeds_false.mp shallow⟩
  · rintro ⟨body, stop, whole, derived, few, shallow⟩
    have isEnd : stop.kind = .eof := by
      rw [kindsOf, whole, List.map_append] at ends
      exact (List.cons.inj (List.append_inj' ends rfl).2).1
    rw [whole]
    exact parseTokens_of_derives derived isEnd (exceeds_false.mpr few) (exceeds_false.mpr shallow)

theorem spanned_of_makes {text : Text} {node : SyntaxNode N} (made : Makes Derives text node) : Spanned text node := by
  rcases made with ⟨body, stop, whole, derived, _, _⟩
  exact ⟨body, stop, whole, covers_of_derives derived, placed_of_derives derived (by decide)⟩

theorem makes_documented {text : Text} {node : SyntaxNode N} :
    Makes Documented text node ↔ Makes Derives text node ∧ blankMember node = false := by
  constructor
  · rintro ⟨body, stop, whole, derived, few, shallow⟩
    rcases derives_of_documented derived with ⟨looser, named⟩
    exact ⟨⟨body, stop, whole, looser, few, shallow⟩, named⟩
  · rintro ⟨⟨body, stop, whole, derived, few, shallow⟩, named⟩
    exact ⟨body, stop, whole, documented_of_derives derived named, few, shallow⟩

/-- The parser accepts a text exactly where the documented grammar derives its tokens
within the limits, and gives the one tree derived, with exact spans. -/
structure Exact (N : Type) [JsNumber N] (text : Text) : Prop where
  accepts : (∃ node : SyntaxNode N, parseFormula defaultLimits text = .ok node) ↔ ∃ node : SyntaxNode N, Makes Documented text node
  unique : ∀ node : SyntaxNode N, parseFormula defaultLimits text = .ok node →
    Makes Documented text node ∧ ∀ other, Makes Documented text other → other = node
  spans : ∀ node : SyntaxNode N, parseFormula defaultLimits text = .ok node → Spanned text node

/-- That holds unless the grammar would make a formula of the text if only a name in
braces behind a relation could be blank. -/
theorem parseFormula_exact (text : Text) (short : text.length ≤ maxFormulaLength) :
    Exact N text ↔ ∀ node : SyntaxNode N, Makes Derives text node → blankMember node = false := by
  constructor
  · intro exact node made
    exact (makes_documented.mp (exact.unique node ((parseFormula_iff short node).mpr made)).1).2
  · intro named
    have documented : ∀ node : SyntaxNode N, parseFormula defaultLimits text = .ok node → Makes Documented text node := by
      intro node accepted
      have made := (parseFormula_iff short node).mp accepted
      exact makes_documented.mpr ⟨made, named node made⟩
    refine ⟨⟨?_, ?_⟩, ?_, ?_⟩
    · rintro ⟨node, accepted⟩
      exact ⟨node, documented node accepted⟩
    · rintro ⟨node, made⟩
      exact ⟨node, (parseFormula_iff short node).mpr (makes_documented.mp made).1⟩
    · intro node accepted
      refine ⟨documented node accepted, fun other made => ?_⟩
      exact makes_unique (makes_documented.mp made).1 ((parseFormula_iff short node).mp accepted)
    · intro node accepted
      exact spanned_of_makes ((parseFormula_iff short node).mp accepted)

end Formula

section Failing
attribute [local instance] asciiTables

theorem parseFormula_blank_member : parseFormula (N := Whole) defaultLimits (js "a.\x7b\x7d") =
    .ok (.field [] true (some ⟨js "a", ⟨0, 1⟩⟩) ⟨0, 4⟩) := rfl

/-- The parser takes `a.{}`, which the documented grammar does not derive. -/
theorem parseFormula_not_exact : ¬Exact Whole (js "a.\x7b\x7d") := by
  intro exact
  have documented := (exact.unique _ parseFormula_blank_member).1
  exact absurd (makes_documented.mp documented).2 (by decide)

theorem parseFormula_member : parseFormula (N := Whole) defaultLimits (js "a.\x7bb\x7d") =
    .ok (.field (js "b") true (some ⟨js "a", ⟨0, 1⟩⟩) ⟨0, 5⟩) := rfl

theorem parseFormula_exact_member : Exact Whole (js "a.\x7bb\x7d") := by
  have short : (js "a.\x7bb\x7d").length ≤ maxFormulaLength := by decide
  refine (parseFormula_exact (N := Whole) _ short).mpr fun node made => ?_
  have accepted := (parseFormula_iff short node).mpr made
  rw [parseFormula_member] at accepted
  rw [← Except.ok.inj accepted]
  decide

end Failing

end OpenShapeForge.Formula.ParserExact
