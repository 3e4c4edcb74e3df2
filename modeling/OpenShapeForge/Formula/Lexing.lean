import OpenShapeForge.Formula.Check
import Mathlib.Data.List.TakeWhile

/-! The kinds of the tokens of a text, and how they compose: where one written
piece ends, the next is read as if it stood alone. -/

namespace OpenShapeForge.Formula.Lexing
open Js Types Tokens

section Characters
variable [Unicode]

theorem isIdentifierStart_ascii {c : CodeUnit} (small : c < 128) :
    isIdentifierStart [c] = (isUpperLetter c || isLowerLetter c || decide (c = unit '_')) := by
  have single : decide ([c] = js "_") = decide (c = unit '_') := by
    show decide ([c] = [unit '_']) = _
    simp
  rw [isIdentifierStart, Unicode.isLetter_ascii c small, single]

theorem isIdentifierPart_ascii {c : CodeUnit} (small : c < 128) :
    isIdentifierPart [c] = (isUpperLetter c || isLowerLetter c || isDigit c || decide (c = unit '_')) := by
  have single : decide ([c] = js "_") = decide (c = unit '_') := by
    show decide ([c] = [unit '_']) = _
    simp
  rw [isIdentifierPart, Unicode.isLetter_ascii c small, Unicode.isNumber_ascii c small, single]

/-- The characters formulas give a meaning of their own, which end every name. -/
def marks : Text := js " (),.+-*/&=!<>\"'\x7b\x7d"

theorem isIdentifierPart_mark {c : CodeUnit} (mark : c ∈ marks) : isIdentifierPart [c] = false := by
  have small : c < 128 := (each_unit (by decide) : ∀ c ∈ marks, c < 128) c mark
  rw [isIdentifierPart_ascii small]
  exact (each_unit (by decide) : ∀ c ∈ marks, (isUpperLetter c || isLowerLetter c || isDigit c || decide (c = unit '_')) = false) c mark

theorem isIdentifierPart_of_start {c : CodeUnit} (start : isIdentifierStart [c] = true) : isIdentifierPart [c] = true := by
  unfold isIdentifierStart at start
  unfold isIdentifierPart
  rcases Bool.or_eq_true _ _ |>.mp start with letter | underscore
  · rw [letter]
    rfl
  · rw [underscore, Bool.or_true]

theorem isIdentifierStart_of_not_part {c : CodeUnit} (other : isIdentifierPart [c] = false) :
    isIdentifierStart [c] = false := by
  rw [← Bool.not_eq_true]
  intro start
  rw [isIdentifierPart_of_start start] at other
  cases other

theorem isIdentifierPart_space {c : CodeUnit} (space : isWhitespace c = true) : isIdentifierPart [c] = false := by
  unfold isIdentifierPart
  rw [Unicode.isLetter_space c space, Unicode.isNumber_space c space, Bool.false_or, Bool.false_or,
    decide_eq_false_iff_not]
  intro same
  rw [List.cons.inj same |>.1] at space
  cases space

theorem isIdentifierStart_digit {c : CodeUnit} (digit : isDigit c = true) : isIdentifierStart [c] = false := by
  have small : c < 128 := by
    simp only [isDigit, Bool.and_eq_true, decide_eq_true_eq, UInt16.le_iff_toNat_le, UInt16.lt_iff_toNat_lt,
      UInt16.reduceToNat] at digit ⊢
    omega
  have letters : (isUpperLetter c || isLowerLetter c || decide (c = unit '_')) = false := by
    simp only [isDigit, isUpperLetter, isLowerLetter, Bool.and_eq_true, Bool.or_eq_false_iff, Bool.and_eq_false_iff,
      decide_eq_true_eq, decide_eq_false_iff_not, UInt16.le_iff_toNat_le, ← UInt16.toNat_inj, UInt16.reduceToNat] at digit ⊢
    have under : (unit '_').toNat = 95 := rfl
    omega
  rw [isIdentifierStart_ascii small, letters]

end Characters

section Kinds
variable {N : Type} [JsNumber N] [Unicode]

theorem lexeme_pos (c : CodeUnit) (rest : Text) : 0 < (lexeme (N := N) (c :: rest)).2 := by
  have spelled : ∀ entry ∈ operators, 0 < entry.1.length := by decide
  rw [lexeme]
  split
  · exact Nat.succ_pos _
  · split
    · exact Nat.succ_pos _
    · split
      · assumption
      · split
        · exact Nat.succ_pos _
        · split
          case h_1 spelling operator found => exact spelled _ (List.mem_of_find?_eq_some found)
          case h_2 => exact Nat.one_pos

theorem lexeme_inside (c : CodeUnit) (rest : Text) : (lexeme (N := N) (c :: rest)).1 ≠ .eof := by
  rw [lexeme]
  split
  · exact fun same => by cases same
  · split
    · exact fun same => by cases same
    · split
      · exact fun same => by cases same
      · split
        · exact fun same => by cases same
        · split
          · exact fun same => by cases same
          · show single c ≠ _
            unfold single
            repeat' split
            all_goals exact fun same => by cases same

def kindsOf (text : Text) : List (TokenKind N) := (tokenize text).map Token.kind

end Kinds

section Runs

theorem takeWhile_stop {p : CodeUnit → Bool} {rest : Text} (stops : ∀ c, rest.head? = some c → p c = false) (text : Text) :
    (text ++ rest).takeWhile p = text.takeWhile p := by
  induction text with
  | nil =>
    rcases rest with _ | ⟨c, later⟩
    · rfl
    · exact List.takeWhile_cons_of_neg (by rw [stops c rfl]; exact Bool.false_ne_true)
  | cons c text ih =>
    rw [List.cons_append, List.takeWhile_cons, List.takeWhile_cons, ih]

theorem numberLength_of_start {c : CodeUnit} (noDigit : isDigit c = false) (noDot : c ≠ unit '.') (rest : Text) :
    numberLength (c :: rest) = 0 := by
  have whole : (c :: rest).takeWhile isDigit = [] := List.takeWhile_cons_of_neg (by rw [noDigit]; exact Bool.false_ne_true)
  have mantissa : mantissaLength (c :: rest) = 0 := by
    rw [mantissaLength, whole]
    show (if c = unit '.' then _ else 0) = 0
    rw [if_neg noDot]
  rw [numberLength, if_pos mantissa]

theorem length_takeWhile_le {p : CodeUnit → Bool} (text : Text) : (text.takeWhile p).length ≤ text.length :=
  (List.takeWhile_sublist p).length_le

theorem mantissaLength_le (text : Text) : mantissaLength text ≤ text.length := by
  have whole := length_takeWhile_le (p := isDigit) text
  have behind : (text.drop (text.takeWhile isDigit).length).length = text.length - (text.takeWhile isDigit).length :=
    List.length_drop
  rw [mantissaLength]
  split
  case h_1 c rest split =>
    rw [split, List.length_cons] at behind
    have fraction := length_takeWhile_le (p := isDigit) rest
    dsimp only
    split
    · split <;> omega
    · exact whole
  case h_2 => exact whole

theorem exponentLength_le (text : Text) : exponentLength text ≤ text.length := by
  rcases text with _ | ⟨c, rest⟩
  · exact Nat.le_refl _
  · have digits : ∀ sign, ((rest.drop sign).takeWhile isDigit).length ≤ rest.length - sign := by
      intro sign
      rw [← List.length_drop]
      exact length_takeWhile_le _
    have signed := digits 1
    have unsigned := digits 0
    rw [exponentLength, List.length_cons]
    dsimp only
    split
    · split
      · split <;> omega
      · split <;> omega
    · exact Nat.zero_le _

theorem numberLength_le (text : Text) : numberLength text ≤ text.length := by
  have mantissa := mantissaLength_le text
  have exponent := exponentLength_le (text.drop (mantissaLength text))
  rw [List.length_drop] at exponent
  rw [numberLength]
  split
  · exact Nat.zero_le _
  · omega

end Runs

section Words
variable {N : Type} [JsNumber N] [Unicode]

theorem lexeme_other {c : CodeUnit} (noBrace : c ≠ unit '\x7b') (noQuote : c ≠ unit '"' ∧ c ≠ unit '\'')
    (noDigit : isDigit c = false) (noDot : c ≠ unit '.') (rest : Text) :
    lexeme (N := N) (c :: rest) =
      if isIdentifierStart [c] then
        (.identifier (c :: rest.takeWhile fun part => isIdentifierPart [part]),
          (c :: rest.takeWhile fun part => isIdentifierPart [part]).length)
      else
        match operators.find? fun entry => entry.1.isPrefixOf (c :: rest) with
        | some (spelling, operator) => (.operator operator, spelling.length)
        | none => (single c, 1) := by
  rw [lexeme, if_neg noBrace, if_neg (by rw [not_or]; exact noQuote), numberLength_of_start noDigit noDot]
  rfl

def isOneIdentifier (text : Text) : Bool :=
  match text with
  | [] => false
  | c :: rest => isIdentifierStart [c] && rest.all fun part => isIdentifierPart [part]

theorem lexeme_identifier {name rest : Text} (one : isOneIdentifier name = true)
    (stops : ∀ c, rest.head? = some c → isIdentifierPart [c] = false) :
    lexeme (N := N) (name ++ rest) = (.identifier name, name.length) := by
  rcases name with _ | ⟨c, tail⟩
  · cases one
  · rw [isOneIdentifier, Bool.and_eq_true, List.all_eq_true] at one
    have notMark : ∀ mark ∈ marks, c ≠ mark := by
      intro mark member same
      have := isIdentifierStart_of_not_part (isIdentifierPart_mark member)
      rw [← same, one.1] at this
      cases this
    have noDigit : isDigit c = false := by
      rw [← Bool.not_eq_true]
      intro digit
      rw [isIdentifierStart_digit digit] at one
      cases one.1
    rw [List.cons_append, lexeme_other (notMark _ (by decide)) ⟨notMark _ (by decide), notMark _ (by decide)⟩ noDigit
      (notMark _ (by decide)), if_pos one.1, takeWhile_stop stops, List.takeWhile_eq_self_iff.mpr one.2]

theorem isWhitespace_identifier {name : Text} (one : isOneIdentifier name = true) (c : CodeUnit) (first : name.head? = some c) :
    isWhitespace c = false := by
  rcases name with _ | ⟨start, tail⟩
  · cases first
  · cases first
    rw [isOneIdentifier, Bool.and_eq_true] at one
    rw [← Bool.not_eq_true]
    intro space
    rw [isIdentifierStart_of_not_part (isIdentifierPart_space space)] at one
    cases one.1

end Words

section Keys
variable {N : Type} [JsNumber N] [Unicode]

theorem kindsOf_end (text : Text) : ∃ before, kindsOf (N := N) text = before ++ [.eof] ∧ .eof ∉ before := by
  have runs : ∀ fuel offset (text : Text),
      ∃ before, (tokenizeFrom (N := N) fuel offset text).map Token.kind = before ++ [.eof] ∧ .eof ∉ before := by
    intro fuel
    induction fuel with
    | zero => intro offset text; exact ⟨[], by cases text <;> rfl, List.not_mem_nil⟩
    | succ fuel ih =>
      intro offset text
      rcases text with _ | ⟨c, rest⟩
      · exact ⟨[], rfl, List.not_mem_nil⟩
      · rw [tokenizeFrom]
        split
        · exact ih _ rest
        · rcases ih (offset + (lexeme (N := N) (c :: rest)).2) ((c :: rest).drop (lexeme (N := N) (c :: rest)).2) with
            ⟨before, same, inside⟩
          refine ⟨(lexeme (c :: rest)).1 :: before, congrArg _ same, fun member => ?_⟩
          rcases List.mem_cons.mp member with isFirst | later
          · exact lexeme_inside c rest isFirst.symm
          · exact inside later
  exact runs _ _ text

def isSurrogate (c : CodeUnit) : Bool := isLeadSurrogate c || isTrailSurrogate c

omit [Unicode] in
theorem isSurrogate_large {c : CodeUnit} (surrogate : isSurrogate c = true) : 0xD800 ≤ c.toNat ∧ c.toNat ≤ 0xDFFF := by
  simp only [isSurrogate, isLeadSurrogate, isTrailSurrogate, Bool.or_eq_true, Bool.and_eq_true, decide_eq_true_eq,
    UInt16.le_iff_toNat_le, UInt16.reduceToNat] at surrogate
  omega

end Keys

end OpenShapeForge.Formula.Lexing
