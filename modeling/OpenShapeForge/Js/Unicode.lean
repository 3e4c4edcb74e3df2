import OpenShapeForge.Js.Text

/-! The character tables the host decides by. Only what they hold on ASCII is
fixed here, and that no white space is a letter or a number. -/

namespace OpenShapeForge.Js

def isUpperLetter (c : CodeUnit) : Bool := 65 ≤ c && c ≤ 90
def isLowerLetter (c : CodeUnit) : Bool := 97 ≤ c && c ≤ 122

def asciiUpper (c : CodeUnit) : CodeUnit := if isLowerLetter c then c - 32 else c
def asciiLower (c : CodeUnit) : CodeUnit := if isUpperLetter c then c + 32 else c

class Unicode where
  /-- `\p{L}` and `\p{N}` on one character, which is one or two code units. -/
  isLetter : Text → Bool
  isNumber : Text → Bool
  toUpperCase : Text → Text
  toLowerCase : Text → Text
  toLocaleLowerCase : Text → Text
  isLetter_ascii : ∀ c : CodeUnit, c < 128 → isLetter [c] = (isUpperLetter c || isLowerLetter c)
  isNumber_ascii : ∀ c : CodeUnit, c < 128 → isNumber [c] = isDigit c
  isLetter_space : ∀ c : CodeUnit, isWhitespace c = true → isLetter [c] = false
  isNumber_space : ∀ c : CodeUnit, isWhitespace c = true → isNumber [c] = false
  toUpperCase_ascii : ∀ text : Text, (∀ c ∈ text, c < 128) → toUpperCase text = text.map asciiUpper
  toLowerCase_ascii : ∀ text : Text, (∀ c ∈ text, c < 128) → toLowerCase text = text.map asciiLower

/-- Tables that know no character beyond ASCII. -/
@[reducible] def asciiTables : Unicode where
  isLetter text := text.all fun c => isUpperLetter c || isLowerLetter c
  isNumber text := text.all isDigit
  toUpperCase text := text.map asciiUpper
  toLowerCase text := text.map asciiLower
  toLocaleLowerCase text := text.map asciiLower
  isLetter_ascii c _ := by simp
  isNumber_ascii c _ := by simp
  isLetter_space c space := by
    simp only [isWhitespace, List.all_cons, List.all_nil, Bool.and_true, isUpperLetter, isLowerLetter,
      Bool.or_eq_true, Bool.and_eq_true, decide_eq_true_eq, beq_iff_eq, UInt16.le_iff_toNat_le, ← UInt16.toNat_inj,
      UInt16.reduceToNat, Bool.or_eq_false_iff, Bool.and_eq_false_iff, decide_eq_false_iff_not] at space ⊢
    omega
  isNumber_space c space := by
    simp only [isWhitespace, List.all_cons, List.all_nil, Bool.and_true, isDigit,
      Bool.or_eq_true, Bool.and_eq_true, decide_eq_true_eq, beq_iff_eq, UInt16.le_iff_toNat_le, ← UInt16.toNat_inj,
      UInt16.reduceToNat, Bool.and_eq_false_iff, decide_eq_false_iff_not] at space ⊢
    omega
  toUpperCase_ascii _ _ := rfl
  toLowerCase_ascii _ _ := rfl

end OpenShapeForge.Js
