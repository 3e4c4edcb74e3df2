import OpenShapeForge.Formula.Lexing
import OpenShapeForge.Js.Dates

/-! The tokens of a text lie apart and in order, each is what the text has at its span, and only white
space lies between them. A name is read as one token where none of its characters takes two code units. -/

namespace OpenShapeForge.Formula.TokenSpans
open Js Types Tokens Lexing

/-- `text.slice(span.start, span.end)`. -/
def sliceAt (text : Text) (span : Span) : Text := (text.drop span.start).take (span.stop - span.start)

section Lengths

theorem scanBraced_le : ∀ text : Text, (scanBraced text).2.1 ≤ text.length
  | [] => Nat.le_refl 0
  | [c] => by
    rw [scanBraced]
    split <;> exact Nat.le_refl 1
  | c :: next :: rest => by
    have behind := scanBraced_le rest
    have after := scanBraced_le (next :: rest)
    rw [List.length_cons] at after
    rw [scanBraced, List.length_cons, List.length_cons]
    split
    · exact Nat.add_le_add_right behind 2
    · split
      · exact Nat.succ_le_succ (Nat.zero_le _)
      · exact Nat.succ_le_succ after

theorem scanQuoted_le (quote : CodeUnit) : ∀ text : Text, (scanQuoted quote text).2.1 ≤ text.length
  | [] => Nat.le_refl 0
  | [c] => by
    rw [scanQuoted]
    split <;> exact Nat.le_refl 1
  | c :: next :: rest => by
    have behind := scanQuoted_le quote rest
    have after := scanQuoted_le quote (next :: rest)
    rw [List.length_cons] at after
    rw [scanQuoted, List.length_cons, List.length_cons]
    split
    · exact Nat.add_le_add_right behind 2
    · split
      · exact Nat.succ_le_succ (Nat.zero_le _)
      · exact Nat.succ_le_succ after

variable {N : Type} [JsNumber N] [Unicode]

theorem lexeme_le (c : CodeUnit) (rest : Text) : (lexeme (N := N) (c :: rest)).2 ≤ (c :: rest).length := by
  rw [lexeme]
  split
  · exact Nat.succ_le_succ (scanBraced_le rest)
  · split
    · exact Nat.succ_le_succ (scanQuoted_le c rest)
    · split
      · exact numberLength_le _
      · split
        · exact Nat.succ_le_succ (length_takeWhile_le rest)
        · split
          next found => exact (List.isPrefixOf_iff_prefix.mp (by simpa using List.find?_some found)).length_le
          next => exact Nat.succ_le_succ (Nat.zero_le _)

end Lengths

section Partition
variable {N : Type} [JsNumber N]

structure Covers (text : Text) (offset : Nat) (tokens : List (Token N)) : Prop where
  ends : ∃ inner, tokens = inner ++ [⟨.eof, [], ⟨text.length, text.length⟩⟩] ∧ ∀ token ∈ inner, token.kind ≠ .eof ∧ token.span.start < token.span.stop
  written : ∀ token ∈ tokens, offset ≤ token.span.start ∧ token.span.stop ≤ text.length ∧ token.text = sliceAt text token.span
  apart : tokens.Pairwise fun a b => a.span.start < b.span.start ∧ a.span.stop ≤ b.span.start
  blank : ∀ place c, offset ≤ place → text[place]? = some c → (∀ token ∈ tokens, ¬(token.span.start ≤ place ∧ place < token.span.stop)) →
    isWhitespace c = true

variable [Unicode]

theorem covers_tokenizeFrom : ∀ (fuel : Nat) (front text : Text), text.length ≤ fuel →
    Covers (N := N) (front ++ text) front.length (tokenizeFrom fuel front.length text)
  | fuel, front, [], _ => by
    have isEnd : tokenizeFrom (N := N) fuel front.length [] = [⟨.eof, [], ⟨front.length, front.length⟩⟩] := by cases fuel <;> rfl
    rw [isEnd, List.append_nil]
    refine ⟨⟨[], rfl, fun _ never => absurd never List.not_mem_nil⟩, fun token member => ?_, List.pairwise_singleton _ _, fun place c high found _ => ?_⟩
    · rw [List.mem_singleton.mp member]
      exact ⟨Nat.le_refl _, Nat.le_refl _, by simp [sliceAt]⟩
    · rw [List.getElem?_eq_none high] at found
      cases found
  | 0, _, _ :: _, never => absurd never (Nat.not_succ_le_zero _)
  | fuel + 1, front, c :: rest, enough => by
    rw [List.length_cons] at enough
    rw [tokenizeFrom]
    split
    next isSpace =>
      have later := covers_tokenizeFrom fuel (front ++ [c]) rest (Nat.le_of_succ_le_succ enough)
      rw [List.append_assoc, List.singleton_append, List.length_append, List.length_singleton] at later
      refine ⟨later.ends, fun token member => ?_, later.apart, fun place d high found outside => ?_⟩
      · have facts := later.written token member
        exact ⟨by omega, facts.2⟩
      · rcases Nat.lt_or_eq_of_le high with further | rfl
        · exact later.blank place d further found outside
        · rw [List.getElem?_append_right (Nat.le_refl _), Nat.sub_self] at found
          cases found
          exact isSpace
    next =>
      have short : (lexeme (N := N) (c :: rest)).2 ≤ rest.length + 1 := lexeme_le c rest
      have positive := lexeme_pos (N := N) c rest
      have inside := lexeme_inside (N := N) c rest
      generalize lexeme (N := N) (c :: rest) = read at short positive inside
      obtain ⟨kind, size⟩ := read
      dsimp only at short positive inside ⊢
      have isTaken : ((c :: rest).take size).length = size := by rw [List.length_take, List.length_cons]; omega
      have later := covers_tokenizeFrom fuel (front ++ (c :: rest).take size) ((c :: rest).drop size)
        (by rw [List.length_drop, List.length_cons]; omega)
      rw [List.append_assoc, List.take_append_drop, List.length_append, isTaken] at later
      obtain ⟨inner, isInner, facts⟩ := later.ends
      refine ⟨⟨⟨kind, (c :: rest).take size, ⟨front.length, front.length + size⟩⟩ :: inner, congrArg _ isInner, ?_⟩, ?_, ?_, ?_⟩
      · intro token member
        rcases List.mem_cons.mp member with rfl | among
        · exact ⟨inside, by dsimp only; omega⟩
        · exact facts token among
      · intro token member
        rcases List.mem_cons.mp member with rfl | among
        · refine ⟨Nat.le_refl _, ?_, ?_⟩
          · rw [List.length_append, List.length_cons]
            dsimp only
            omega
          · rw [sliceAt, List.drop_left, Nat.add_sub_cancel_left]
        · have written := later.written token among
          exact ⟨by omega, written.2⟩
      · refine List.pairwise_cons.mpr ⟨fun token member => ?_, later.apart⟩
        have written := later.written token member
        dsimp only
        omega
      · intro place d high found outside
        refine later.blank place d ?_ found fun token member => outside token (List.mem_cons_of_mem _ member)
        have first := outside _ List.mem_cons_self
        dsimp only at first
        omega

theorem covers_tokenize (text : Text) : Covers (N := N) text 0 (tokenize text) := covers_tokenizeFrom text.length [] text (Nat.le_refl _)

end Partition

section Identifiers
variable {N : Type} [JsNumber N] [Unicode]

def nameTokens (text : Text) : List (Token N) := [⟨.identifier text, text, ⟨0, text.length⟩⟩, ⟨.eof, [], ⟨text.length, text.length⟩⟩]

theorem isOneIdentifier_of_lexeme {c : CodeUnit} {rest name : Text} {size : Nat} (read : lexeme (N := N) (c :: rest) = (.identifier name, size))
    (whole : name = c :: rest) : isOneIdentifier (c :: rest) = true := by
  rw [lexeme] at read
  split at read
  · cases read
  · split at read
    · cases read
    · split at read
      · cases read
      · split at read
        next isStart =>
          cases read
          rw [isOneIdentifier, isStart, Bool.true_and, List.all_eq_true]
          intro part member
          rw [← (List.cons.inj whole).2] at member
          exact List.mem_takeWhile_imp (p := fun part => isIdentifierPart [part]) member
        next =>
          split at read
          · cases read
          · have isSingle : single c = TokenKind.identifier (N := N) name := congrArg Prod.fst read
            unfold single at isSingle
            split at isSingle
            · cases isSingle
            · split at isSingle
              · cases isSingle
              · split at isSingle
                · cases isSingle
                · split at isSingle <;> cases isSingle

theorem tokenize_name (text : Text) : tokenize (N := N) text = nameTokens text ↔ isOneIdentifier text = true := by
  constructor
  · intro isName
    cases text with
    | nil => cases isName
    | cons c rest =>
      rw [tokenize, List.length_cons, tokenizeFrom] at isName
      split at isName
      next isSpace =>
        have later := (covers_tokenizeFrom (N := N) rest.length [c] rest (Nat.le_refl _)).written
        rw [List.length_singleton, isName] at later
        exact absurd (later _ List.mem_cons_self).1 (Nat.not_succ_le_zero 0)
      next =>
        obtain ⟨first, -⟩ := List.cons.inj isName
        exact isOneIdentifier_of_lexeme (Prod.ext (congrArg Token.kind first) rfl) rfl
  · intro one
    have read : lexeme (N := N) text = (.identifier text, text.length) := by
      have stands : lexeme (N := N) (text ++ []) = _ := lexeme_identifier one fun c never => by cases never
      rwa [List.append_nil] at stands
    have visible := isWhitespace_identifier one
    cases text with
    | nil => cases one
    | cons c rest =>
      rw [tokenize, List.length_cons, tokenizeFrom, if_neg (by rw [visible c rfl]; exact Bool.false_ne_true), read]
      have behind : ∀ fuel, tokenizeFrom (N := N) fuel (0 + (c :: rest).length) ((c :: rest).drop (c :: rest).length) =
          [⟨.eof, [], ⟨(c :: rest).length, (c :: rest).length⟩⟩] := by
        intro fuel
        rw [List.drop_length, Nat.zero_add]
        cases fuel <;> rfl
      dsimp only
      rw [behind, List.take_length, Nat.zero_add]
      rfl

omit [Unicode] in
theorem characters_single : ∀ {text : Text}, (∀ c ∈ text, isSurrogate c = false) → Tokens.characters text = text.map fun c => [c]
  | [], _ => rfl
  | [c], _ => rfl
  | c :: next :: rest, plain => by
    have alone : ¬(isLeadSurrogate c && isTrailSurrogate next) = true := by
      have first := plain c List.mem_cons_self
      rw [isSurrogate, Bool.or_eq_false_iff] at first
      rw [first.1, Bool.false_and]
      exact Bool.false_ne_true
    rw [Tokens.characters, if_neg alone, characters_single fun other member => plain other (List.mem_cons_of_mem _ member)]
    rfl

theorem isIdentifier_single {text : Text} (plain : ∀ c ∈ text, isSurrogate c = false) : isIdentifier text = isOneIdentifier text := by
  cases text with
  | nil => rfl
  | cons c rest =>
    rw [isIdentifier, isOneIdentifier, characters_single fun other member => plain other (List.mem_cons_of_mem _ member), List.all_map]
    rfl

variable (lone : ∀ c, isSurrogate c = true → Unicode.isLetter [c] = false ∧ Unicode.isNumber [c] = false)
include lone

theorem plain_of_part {c : CodeUnit} (part : isIdentifierPart [c] = true) : isSurrogate c = false := by
  by_contra surrogate
  have isLone := Bool.eq_true_of_not_eq_false surrogate
  have range := isSurrogate_large isLone
  rw [isIdentifierPart, (lone c isLone).1, (lone c isLone).2, Bool.false_or, Bool.false_or, decide_eq_true_eq] at part
  rw [(List.cons.inj part).1] at range
  exact absurd range.1 (by decide)

/-- A text parts into its tokens; it is one name for the identifier test as for the scanner, but where a
name has a character of two code units. -/
theorem tokenize_partitions (text : Text) : Covers (N := N) text 0 (tokenize text) ∧
    ((isIdentifier text = true ↔ tokenize (N := N) text = nameTokens text) ↔
      (isIdentifier text = true → ∀ c ∈ text, isSurrogate c = false)) := by
  refine ⟨covers_tokenize text, ?_⟩
  rw [tokenize_name]
  have plain_of_one : isOneIdentifier text = true → ∀ c ∈ text, isSurrogate c = false := by
    intro one
    cases text with
    | nil => cases one
    | cons c rest =>
      rw [isOneIdentifier, Bool.and_eq_true, List.all_eq_true] at one
      intro other member
      rcases List.mem_cons.mp member with rfl | among
      · exact plain_of_part lone (isIdentifierPart_of_start one.1)
      · exact plain_of_part lone (one.2 other among)
  constructor
  · exact fun same isName => plain_of_one (same.mp isName)
  · intro plain
    constructor
    · exact fun isName => isIdentifier_single (plain isName) ▸ isName
    · exact fun one => (isIdentifier_single (plain_of_one one)).trans one

end Identifiers

section Runs

/-- The tables of ASCII with one letter of two code units. -/
@[reducible] def boldTables : Unicode :=
  { asciiTables with
    isLetter := fun text => (text.all fun c => isUpperLetter c || isLowerLetter c) || decide (text = [0xD835, 0xDC00])
    isLetter_ascii := fun c small => by simp
    isLetter_space := fun c space => by
      have plain : ([c].all fun c => isUpperLetter c || isLowerLetter c) = false := @Unicode.isLetter_space asciiTables c space
      rw [plain, Bool.false_or, decide_eq_false_iff_not]
      exact fun never => by cases never }

def boldName : Text := [unit 'a', 0xD835, 0xDC00]

theorem boldName_parted : ¬(@isIdentifier boldTables boldName = true ↔ @tokenize Whole _ boldTables boldName = nameTokens boldName) := by
  decide +kernel

theorem tokenize_partitions_ascii : @Covers Whole (js "a + b") 0 (@tokenize Whole _ asciiTables (js "a + b")) ∧
    ((@isIdentifier asciiTables (js "a + b") = true ↔ @tokenize Whole _ asciiTables (js "a + b") = nameTokens (js "a + b")) ↔
      (@isIdentifier asciiTables (js "a + b") = true → ∀ c ∈ js "a + b", isSurrogate c = false)) := by
  refine @tokenize_partitions Whole _ asciiTables (fun c surrogate => ?_) (js "a + b")
  have range := isSurrogate_large surrogate
  change ([c].all fun c => isUpperLetter c || isLowerLetter c) = false ∧ [c].all isDigit = false
  simp only [List.all_cons, List.all_nil, Bool.and_true, isUpperLetter, isLowerLetter, isDigit, Bool.or_eq_false_iff,
    Bool.and_eq_false_iff, decide_eq_false_iff_not, UInt16.le_iff_toNat_le, UInt16.reduceToNat]
  omega

end Runs

end OpenShapeForge.Formula.TokenSpans
