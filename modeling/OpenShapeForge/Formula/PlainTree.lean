import OpenShapeForge.Formula.Lexing
import OpenShapeForge.Formula.ParserSound

/-! The kinds of the tokens of an expression, read from left to right: no token that is
invalid or the end, and no blank name that stands alone. -/

namespace OpenShapeForge.Formula.PlainTree
open Js Types Tokens SyntaxTree Grammar Lexing ParserComplete ParserSound

section Spelling
variable {N : Type} [JsNumber N] [Unicode]

/-- Whether a dot came last, as long as the kinds read pass. -/
def scanStep : Option Bool → TokenKind N → Option Bool
  | none, _ => none
  | some afterDot, .field name _ => if afterDot ∨ trim name ≠ [] then some false else none
  | some _, .invalid | some _, .eof => none
  | some _, .dot => some true
  | some _, _ => some false

def scan (kinds : List (TokenKind N)) (state : Option Bool) : Option Bool := kinds.foldl scanStep state

omit [JsNumber N] [Unicode] in
theorem scan_append (first second : List (TokenKind N)) (state : Option Bool) :
    scan (first ++ second) state = scan second (scan first state) := List.foldl_append

omit [JsNumber N] [Unicode] in
theorem scan_cons (kind : TokenKind N) (rest : List (TokenKind N)) (state : Option Bool) :
    scan (kind :: rest) state = scan rest (scanStep state kind) := rfl

omit [JsNumber N] [Unicode] in
theorem scan_none (kinds : List (TokenKind N)) : scan kinds none = none := by
  induction kinds with
  | nil => rfl
  | cons kind rest ih => exact ih

omit [JsNumber N] [Unicode] in
theorem scan_of_mem {kind : TokenKind N} {kinds : List (TokenKind N)} (stops : ∀ afterDot, scanStep (some afterDot) kind = none)
    (member : kind ∈ kinds) (state : Option Bool) : scan kinds state = none := by
  rcases List.append_of_mem member with ⟨before, after, rfl⟩
  rw [scan_append, scan_cons]
  cases scan before state with
  | none => exact scan_none after
  | some afterDot => rw [stops, scan_none]

omit [JsNumber N] [Unicode] in
theorem scan_others {others : List (Argument N)} (commas : ∀ other ∈ others, other.comma.kind = .comma)
    (each : ∀ other ∈ others, scan (other.tokens.map Token.kind) (some false) = some false) :
    scan ((others.flatMap Argument.written).map Token.kind) (some false) = some false := by
  induction others with
  | nil => rfl
  | cons other others ih =>
    rw [List.flatMap_cons, Argument.written, List.cons_append, List.map_cons, scan_cons, commas other List.mem_cons_self,
      List.map_append, scan_append]
    show scan _ (scan (other.tokens.map Token.kind) (some false)) = _
    rw [each other List.mem_cons_self]
    exact ih (fun another member => commas another (List.mem_cons_of_mem _ member))
      (fun another member => each another (List.mem_cons_of_mem _ member))

omit [JsNumber N] in
theorem scan_of_derives {level : Nat} {tokens : List (Token N)} {node : SyntaxNode N} (derived : Derives level tokens node) :
    scan (tokens.map Token.kind) (some false) = some false := by
  induction derived with
  | tighter _ _ ih => exact ih
  | binary kind _ _ _ leftIh rightIh =>
    rw [List.map_append, scan_append, leftIh, List.map_cons, scan_cons, kind]
    exact rightIh
  | @unary sign token tokens _ signed _ ih =>
    have passes : scanStep (some false) token.kind = some false := by
      rcases token with ⟨kind, text, span⟩
      cases kind with
      | operator symbol => rfl
      | _ => cases signed
    rw [List.map_cons, scan_cons, passes]
    exact ih
  | number kind => rw [List.map_cons, kind]; rfl
  | string kind => rw [List.map_cons, kind]; rfl
  | braced kind named =>
    rw [List.map_cons, kind]
    exact if_pos (Or.inr named)
  | word kind => rw [List.map_cons, kind]; rfl
  | @member nameToken dot token _ _ _ nameKind dotKind found _ =>
    have passes : scanStep (some true) token.kind = some false := by
      rcases token with ⟨kind, text, span⟩
      cases kind with
      | identifier name => rfl
      | field name terminated => simp [scanStep]
      | _ => cases found
    rw [List.map_cons, nameKind, List.map_cons, dotKind, List.map_cons, List.map_nil]
    exact passes
  | paren openKind _ closeKind ih =>
    rw [List.map_append, List.map_cons, openKind, scan_append, scan_cons, List.map_cons, closeKind]
    show scan _ (scan _ (some false)) = _
    rw [ih]
    rfl
  | constant nameKind openKind closeKind =>
    rw [List.map_cons, nameKind, List.map_cons, openKind, List.map_cons, closeKind]
    rfl
  | call nameKind openKind _ commas _ closeKind ih ihAll =>
    rw [List.map_append, List.map_append, List.map_cons, nameKind, List.map_cons, openKind, scan_append, scan_append,
      scan_cons, scan_cons, List.map_cons, closeKind]
    show scan _ (scan _ (scan _ (some false))) = _
    rw [ih, scan_others commas ihAll]
    rfl

omit [JsNumber N] in
theorem eof_not_mem_of_derives {level : Nat} {tokens : List (Token N)} {node : SyntaxNode N}
    (derived : Derives level tokens node) : .eof ∉ tokens.map Token.kind := by
  intro member
  have passes := scan_of_derives derived
  rw [scan_of_mem (fun _ => rfl) member] at passes
  cases passes

end Spelling

section Parsing
variable {N : Type} [JsNumber N] [Unicode] {limits : ParserLimits}

omit [JsNumber N] [Unicode] in
theorem append_end_inj {α : Type} {stop : α} : ∀ {first second after : List α}, first ++ after = second ++ [stop] →
    stop ∉ first → stop ∉ second → (∀ head, after.head? = some head → head = stop) → first = second := by
  intro first
  induction first with
  | nil =>
    intro second after same _ notSecond head
    rcases second with _ | ⟨other, second⟩
    · rfl
    · rw [List.nil_append] at same
      exact absurd (head other (by rw [same]; rfl)) fun isStop => notSecond (isStop ▸ List.mem_cons_self)
  | cons kind first ih =>
    intro second after same notFirst notSecond head
    rcases second with _ | ⟨other, second⟩
    · exact absurd (List.cons.inj same).1 fun isStop => notFirst (isStop ▸ List.mem_cons_self)
    · rcases List.cons.inj same with ⟨rfl, rest⟩
      exact congrArg _ (ih rest (fun member => notFirst (List.mem_cons_of_mem _ member))
        (fun member => notSecond (List.mem_cons_of_mem _ member)) head)

end Parsing

end OpenShapeForge.Formula.PlainTree
