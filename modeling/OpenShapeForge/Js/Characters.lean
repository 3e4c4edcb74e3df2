import OpenShapeForge.Js.TextOrder
import OpenShapeForge.Js.Utf8

/-! Texts of whole characters: one stands in another by its code units exactly where it does by
its characters. -/

namespace OpenShapeForge.Js

def utf16 (chars : List Char) : Text := chars.flatMap fun c => unitsOf c.toNat

theorem utf16_cons (c : Char) (chars : List Char) : utf16 (c :: chars) = unitsOf c.toNat ++ utf16 chars := List.flatMap_cons

theorem utf16_characters {text : Text} (wellFormed : WellFormed text) : utf16 (characters text) = text := (units_characters text).trans wellFormed

theorem toNat_small {n : Nat} (small : n < 0x10000) : (UInt16.ofNat n).toNat = n := by
  rw [UInt16.toNat_ofNat', Nat.mod_eq_of_lt small]

theorem isHighSurrogate_iff (u : CodeUnit) : isHighSurrogate u = true ↔ 0xD800 ≤ u.toNat ∧ u.toNat ≤ 0xDBFF := by
  simp only [isHighSurrogate, Bool.and_eq_true, decide_eq_true_eq, UInt16.le_iff_toNat_le]
  rfl

theorem isLowSurrogate_iff (u : CodeUnit) : isLowSurrogate u = true ↔ 0xDC00 ≤ u.toNat ∧ u.toNat ≤ 0xDFFF := by
  simp only [isLowSurrogate, Bool.and_eq_true, decide_eq_true_eq, UInt16.le_iff_toNat_le]
  rfl

theorem unitsOf_char (c : Char) : (∃ u, unitsOf c.toNat = [u] ∧ isHighSurrogate u = false ∧ isLowSurrogate u = false ∧ u.toNat = c.toNat) ∨
    ∃ high low, unitsOf c.toNat = [high, low] ∧ isHighSurrogate high = true ∧ isLowSurrogate low = true ∧ pairCharacter high low = c ∧
      c.toNat = 0x10000 + (high.toNat - 0xD800) * 0x400 + (low.toNat - 0xDC00) := by
  have valid : c.toNat.isValidChar := c.valid
  have back : Char.ofNat c.toNat = c := Char.ofNat_toNat c
  generalize c.toNat = n at *
  unfold Nat.isValidChar at valid
  unfold unitsOf
  by_cases small : n < 0x10000
  · rw [if_pos small]
    have isUnit := toNat_small small
    refine .inl ⟨_, rfl, ?_, ?_, isUnit⟩
    · rw [Bool.eq_false_iff, ne_eq, isHighSurrogate_iff, isUnit]
      omega
    · rw [Bool.eq_false_iff, ne_eq, isLowSurrogate_iff, isUnit]
      omega
  · rw [if_neg small]
    have isHigh : (UInt16.ofNat (0xD800 + (n - 0x10000) / 0x400)).toNat = 0xD800 + (n - 0x10000) / 0x400 := toNat_small (by omega)
    have isLow : (UInt16.ofNat (0xDC00 + (n - 0x10000) % 0x400)).toNat = 0xDC00 + (n - 0x10000) % 0x400 := toNat_small (by omega)
    have same : 0x10000 + (0xD800 + (n - 0x10000) / 0x400 - 0xD800) * 0x400 + (0xDC00 + (n - 0x10000) % 0x400 - 0xDC00) = n := by omega
    refine .inr ⟨_, _, rfl, ?_, ?_, ?_, ?_⟩
    · rw [isHighSurrogate_iff, isHigh]
      omega
    · rw [isLowSurrogate_iff, isLow]
      omega
    · unfold pairCharacter
      rw [isHigh, isLow, same, back]
    · rw [isHigh, isLow, same]

theorem char_of_toNat {c d : Char} (same : c.toNat = d.toNat) : c = d := by
  rw [← Char.ofNat_toNat c, same, Char.ofNat_toNat]

theorem prefix_of_utf16 : ∀ {front chars : List Char} {rest : Text}, utf16 front ++ rest = utf16 chars → front <+: chars
  | [], chars, rest, _ => List.nil_prefix
  | c :: front, [], rest, same => by
    rw [utf16_cons, List.append_assoc] at same
    rcases unitsOf_char c with ⟨u, isUnits, -⟩ | ⟨high, low, isUnits, -⟩
    · rw [isUnits] at same
      cases same
    · rw [isUnits] at same
      cases same
  | c :: front, d :: chars, rest, same => by
    rw [utf16_cons, utf16_cons, List.append_assoc] at same
    rcases unitsOf_char c with ⟨u, isUnits, noHigh, -, number⟩ | ⟨high, low, isUnits, isHigh, isLow, pair, -⟩
    · rcases unitsOf_char d with ⟨v, isUnits', -, -, number'⟩ | ⟨high', low', isUnits', isHigh', -⟩
      · rw [isUnits, isUnits'] at same
        obtain ⟨head, tail⟩ := List.cons.inj same
        have sameChar : c = d := char_of_toNat (number.symm.trans ((congrArg UInt16.toNat head).trans number'))
        exact List.cons_prefix_cons.mpr ⟨sameChar, prefix_of_utf16 tail⟩
      · rw [isUnits, isUnits'] at same
        rw [(List.cons.inj same).1, isHigh'] at noHigh
        cases noHigh
    · rcases unitsOf_char d with ⟨v, isUnits', noHigh', -⟩ | ⟨high', low', isUnits', -, -, pair', -⟩
      · rw [isUnits, isUnits'] at same
        rw [← (List.cons.inj same).1, isHigh] at noHigh'
        cases noHigh'
      · rw [isUnits, isUnits'] at same
        obtain ⟨sameHigh, same⟩ := List.cons.inj same
        obtain ⟨sameLow, tail⟩ := List.cons.inj same
        have sameChar : c = d := by rw [← pair, ← pair', sameHigh, sameLow]
        exact List.cons_prefix_cons.mpr ⟨sameChar, prefix_of_utf16 tail⟩

theorem utf16_inj {one two : List Char} (same : utf16 one = utf16 two) : one = two := by
  have forth : one <+: two := prefix_of_utf16 ((List.append_nil _).trans same)
  have back : two <+: one := prefix_of_utf16 ((List.append_nil _).trans same.symm)
  exact forth.eq_of_length (Nat.le_antisymm forth.length_le back.length_le)

theorem wellFormed_utf16 (chars : List Char) : WellFormed (utf16 chars) := by
  induction chars with
  | nil => rfl
  | cons c chars ih =>
    have first : WellFormed (unitsOf c.toNat) := by
      unfold WellFormed
      rcases unitsOf_char c with ⟨u, isUnits, noHigh, noLow, -⟩ | ⟨high, low, isUnits, isHigh, isLow, -⟩
      · simp [isUnits, toWellFormed, wellFormedUnit, noHigh, noLow]
      · simp [isUnits, toWellFormed, isHigh, isLow]
    rw [utf16_cons]
    exact first.append ih

theorem characters_utf16 (chars : List Char) : characters (utf16 chars) = chars := utf16_inj (utf16_characters (wellFormed_utf16 chars))

section Order

def charsLess : List Char → List Char → Bool
  | _, [] => false
  | [], _ :: _ => true
  | c :: first, d :: second => c.toNat < d.toNat || (c = d && charsLess first second)

/-- A character of two code units, against one that comes after all that begin such a pair. -/
def Crossed (c d : Char) : Prop := 0x10000 ≤ c.toNat ∧ 0xE000 ≤ d.toNat ∧ d.toNat < 0x10000

theorem Crossed.ne {c d : Char} (crossed : Crossed c d) : c ≠ d := by
  rintro rfl
  exact Nat.not_lt.mpr crossed.1 crossed.2.2

theorem textLess_append (front first second : Text) : textLess (front ++ first) (front ++ second) = textLess first second := by
  induction front with
  | nil => rfl
  | cons a front ih =>
    rw [Bool.eq_iff_iff, List.cons_append, List.cons_append, textLess_cons, ih]
    exact ⟨fun less => less.elim (fun lower => absurd lower (UInt16.lt_irrefl a)) And.right, fun less => .inr ⟨rfl, less⟩⟩

end Order

end OpenShapeForge.Js
