import OpenShapeForge.Js.Value
import Mathlib.Data.Rat.Defs

/-! JSON texts as `JSON.parse` reads them, with their numbers as they are written. -/

namespace OpenShapeForge.Js

/-- What a JSON text says. Of a name that an object repeats, the last value counts. -/
inductive Json where
  | null
  | boolean (value : Bool)
  | number (value : ℚ)
  | text (value : Text)
  | array (items : List Json)
  | object (members : List (Text × Json))

def Json.value {N : Type} (nearest : ℚ → N) : Json → Value N
  | .null => .null
  | .boolean value => .boolean value
  | .number value => .number (nearest value)
  | .text value => .text value
  | .array items => .array (items' items)
  | .object members => .object (members' members)
where
  items' : List Json → List (Value N)
    | [] => []
    | item :: rest => item.value nearest :: items' rest
  members' : List (Text × Json) → Members N
    | [] => []
    | (name, value) :: rest => (name, value.value nearest) :: members' rest

namespace JsonText

def isJsonSpace (c : CodeUnit) : Bool := c == 9 || c == 10 || c == 13 || c == 32

def skip (text : Text) : Text := text.dropWhile isJsonSpace

/-- A hexadecimal digit. -/
def hexValue (c : CodeUnit) : Option Nat :=
  if isDigit c then some (c.toNat - 48)
  else if 97 ≤ c ∧ c ≤ 102 then some (c.toNat - 87)
  else if 65 ≤ c ∧ c ≤ 70 then some (c.toNat - 55)
  else none

def hexUnit (a b c d : CodeUnit) : Option CodeUnit :=
  match hexValue a, hexValue b, hexValue c, hexValue d with
  | some a, some b, some c, some d => some (UInt16.ofNat (a * 4096 + b * 256 + c * 16 + d))
  | _, _, _, _ => none

/-- What a backslash before a code unit other than `u` stands for. -/
def unescaped (c : CodeUnit) : Option CodeUnit :=
  if c = unit '"' ∨ c = unit '\\' ∨ c = unit '/' then some c
  else if c = unit 'b' then some 8
  else if c = unit 'f' then some 12
  else if c = unit 'n' then some 10
  else if c = unit 'r' then some 13
  else if c = unit 't' then some 9
  else none

/-- A string behind its opening quote, and what follows its closing one. -/
def readString : Text → Option (Text × Text)
  | [] => none
  | c :: rest =>
    if c = unit '"' then some ([], rest)
    else if c = unit '\\' then
      match rest with
      | [] => none
      | e :: rest =>
        if e = unit 'u' then
          match rest with
          | h :: i :: j :: k :: rest =>
            (hexUnit h i j k).bind fun c => (readString rest).map fun (read, after) => (c :: read, after)
          | _ => none
        else (unescaped e).bind fun c => (readString rest).map fun (read, after) => (c :: read, after)
    else if c < 32 then none
    else (readString rest).map fun (read, after) => (c :: read, after)

def digitsValue (digits : Text) : Nat := digits.foldl (fun total c => 10 * total + (c.toNat - 48)) 0

/-- The digits behind a point, where there is one. -/
def readFraction (text : Text) : Option (Text × Text) :=
  if text.head? = some (unit '.') then
    let (digits, after) := text.tail.span isDigit
    if digits = [] then none else some (digits, after)
  else some ([], text)

def readExponent (text : Text) : Option (Int × Text) :=
  if text.head? = some (unit 'e') ∨ text.head? = some (unit 'E') then
    let negative := text.tail.head? = some (unit '-')
    let signed := negative ∨ text.tail.head? = some (unit '+')
    let (digits, after) := (if signed then text.tail.tail else text.tail).span isDigit
    if digits = [] then none else some (if negative then -(digitsValue digits : Int) else digitsValue digits, after)
  else some (0, text)

/-- A number that is shifted by a power of ten. -/
def scaled (mantissa exponent : Int) : ℚ :=
  if 0 ≤ exponent then ((mantissa * 10 ^ exponent.toNat : Int) : ℚ) else mkRat mantissa (10 ^ (-exponent).toNat)

def readNumber (text : Text) : Option (ℚ × Text) :=
  let negative := text.head? = some (unit '-')
  let (whole, after) := (if negative then text.tail else text).span isDigit
  if whole = [] ∨ (whole.head? = some (unit '0') ∧ whole.length ≠ 1) then none
  else
    (readFraction after).bind fun (fraction, after) => (readExponent after).map fun (exponent, after) =>
      let mantissa : Int := digitsValue (whole ++ fraction)
      (scaled (if negative then -mantissa else mantissa) (exponent - fraction.length), after)

def define (members : List (Text × Json)) (member : Text × Json) : List (Text × Json) :=
  if members.any fun known => known.1 = member.1 then members.map fun known => if known.1 = member.1 then member else known
  else members ++ [member]

def readWord (word : Text) (value : Json) (text : Text) : Option (Json × Text) :=
  if word.isPrefixOf text then some (value, text.drop word.length) else none

mutual

/-- The value at the start of a text, and what follows it. The first number bounds the steps. -/
def readValue : Nat → Text → Option (Json × Text)
  | 0, _ => none
  | steps + 1, text =>
    let text := skip text
    if text.head? = some (unit '"') then (readString text.tail).map fun (value, after) => (.text value, after)
    else if text.head? = some (unit '[') then
      if (skip text.tail).head? = some (unit ']') then some (.array [], (skip text.tail).tail)
      else (readItems steps text.tail).map fun (items, after) => (.array items, after)
    else if text.head? = some 0x7B then
      if (skip text.tail).head? = some 0x7D then some (.object [], (skip text.tail).tail)
      else (readMembers steps text.tail).map fun (members, after) => (.object (members.foldl define []), after)
    else if text.head? = some (unit 't') then readWord (js "true") (.boolean true) text
    else if text.head? = some (unit 'f') then readWord (js "false") (.boolean false) text
    else if text.head? = some (unit 'n') then readWord (js "null") .null text
    else (readNumber text).map fun (value, after) => (.number value, after)

def readItems : Nat → Text → Option (List Json × Text)
  | 0, _ => none
  | steps + 1, text =>
    (readValue steps text).bind fun (item, after) =>
      if (skip after).head? = some (unit ',') then (readItems steps (skip after).tail).map fun (items, after) => (item :: items, after)
      else if (skip after).head? = some (unit ']') then some ([item], (skip after).tail)
      else none

def readMembers : Nat → Text → Option (List (Text × Json) × Text)
  | 0, _ => none
  | steps + 1, text =>
    if (skip text).head? ≠ some (unit '"') then none
    else
      (readString (skip text).tail).bind fun (name, after) =>
        if (skip after).head? ≠ some (unit ':') then none
        else
          (readValue steps (skip after).tail).bind fun (value, after) =>
            if (skip after).head? = some (unit ',') then
              (readMembers steps (skip after).tail).map fun (members, after) => ((name, value) :: members, after)
            else if (skip after).head? = some 0x7D then some ([(name, value)], (skip after).tail)
            else none

end

/-- `JSON.parse`; nothing where it throws. No value takes more steps than two for each code unit. -/
def parse (text : Text) : Option Json :=
  (readValue (2 * text.length + 2) text).bind fun (value, after) => if skip after = [] then some value else none

def before (c : CodeUnit) (read : Option (Text × Text)) : Option (Text × Text) := read.map fun (text, after) => (c :: text, after)

theorem readString_plain {c : CodeUnit} (quote : c ≠ unit '"') (backslash : c ≠ unit '\\') (printed : 32 ≤ c) (tail : Text) :
    readString (c :: tail) = before c (readString tail) := by
  have notControl : ¬ c < 32 := UInt16.not_lt.mpr printed
  rw [readString.eq_def]
  simp [quote, backslash, notControl, before]

theorem readString_unescaped {e c : CodeUnit} (isUnit : unescaped e = some c) (tail : Text) :
    readString (unit '\\' :: e :: tail) = before c (readString tail) := by
  have notHex : e ≠ unit 'u' := by
    rintro rfl
    have nothing : unescaped (unit 'u') = none := by decide
    rw [nothing] at isUnit
    cases isUnit
  have notQuote : unit '\\' ≠ unit '"' := by decide
  rw [readString.eq_def]
  simp [notQuote, notHex, isUnit, before]

theorem readString_hex {h i j k c : CodeUnit} (isUnit : hexUnit h i j k = some c) (tail : Text) :
    readString (unit '\\' :: unit 'u' :: h :: i :: j :: k :: tail) = before c (readString tail) := by
  have notQuote : unit '\\' ≠ unit '"' := by decide
  rw [readString.eq_def]
  simp [notQuote, isUnit, before]

theorem hexValue_hexDigit {n : Nat} (digit : n < 16) : hexValue (hexDigit n) = some n := by
  have every : ∀ n : Fin 16, hexValue (hexDigit n.val) = some n.val := by decide
  exact every ⟨n, digit⟩

theorem hexUnit_digits (c : CodeUnit) :
    hexUnit (hexDigit (c.toNat / 4096)) (hexDigit (c.toNat / 256 % 16)) (hexDigit (c.toNat / 16 % 16)) (hexDigit (c.toNat % 16)) = some c := by
  have bound : c.toNat < 65536 := c.toNat_lt
  have whole : c.toNat / 4096 * 4096 + c.toNat / 256 % 16 * 256 + c.toNat / 16 % 16 * 16 + c.toNat % 16 = c.toNat := by omega
  rw [hexUnit, hexValue_hexDigit (by omega), hexValue_hexDigit (by omega), hexValue_hexDigit (by omega), hexValue_hexDigit (by omega)]
  dsimp only
  rw [whole, UInt16.ofNat_toNat]

theorem readString_jsonEscape (c : CodeUnit) (tail : Text) : readString (jsonEscape c ++ tail) = before c (readString tail) := by
  have named : ∀ {n : Nat}, c.toNat = n → c = UInt16.ofNat n := fun same => by rw [← same, UInt16.ofNat_toNat]
  unfold jsonEscape
  dsimp only
  split
  next isQuote =>
    apply readString_unescaped
    rcases isQuote with rfl | rfl
    · rfl
    · rfl
  next notQuote =>
    split
    next same => exact readString_unescaped (named same ▸ rfl) tail
    split
    next same => exact readString_unescaped (named same ▸ rfl) tail
    split
    next same => exact readString_unescaped (named same ▸ rfl) tail
    split
    next same => exact readString_unescaped (named same ▸ rfl) tail
    split
    next same => exact readString_unescaped (named same ▸ rfl) tail
    split
    next => exact readString_hex (hexUnit_digits c) tail
    next ordinary =>
      have printed : 32 ≤ c := by
        rw [UInt16.le_iff_toNat_le]
        simp
        omega
      exact readString_plain (fun same => notQuote (.inl same)) (fun same => notQuote (.inr same)) printed tail

theorem readString_jsonEscapeAll (text rest : Text) : readString (jsonEscapeAll text ++ unit '"' :: rest) = some (text, rest) := by
  fun_induction jsonEscapeAll text with
  | case1 =>
    rw [List.nil_append, readString.eq_def]
    simp
  | case2 c =>
    rw [readString_jsonEscape, readString.eq_def]
    simp [before]
  | case3 c next tail paired ih =>
    have printed : ∀ {d : CodeUnit}, 0xD800 ≤ d → d ≠ unit '"' ∧ d ≠ unit '\\' ∧ 32 ≤ d := by
      intro d high
      refine ⟨?_, ?_, UInt16.le_trans (by decide) high⟩
      · rintro rfl
        exact absurd high (by decide)
      · rintro rfl
        exact absurd high (by decide)
    obtain ⟨quote, backslash, isPrinted⟩ := printed paired.1
    obtain ⟨quote', backslash', isPrinted'⟩ := printed (UInt16.le_trans (by decide) paired.2.2.1)
    rw [List.cons_append, List.cons_append, readString_plain quote backslash isPrinted, readString_plain quote' backslash' isPrinted', ih]
    rfl
  | case4 c next tail _ ih =>
    rw [List.append_assoc, readString_jsonEscape, ih]
    rfl

theorem quoteJson_append_inj {first second later other : Text} (same : quoteJson first ++ later = quoteJson second ++ other) :
    first = second ∧ later = other := by
  have shape : ∀ text rest : Text, quoteJson text ++ rest = unit '"' :: (jsonEscapeAll text ++ unit '"' :: rest) := fun text rest => by
    simp [quoteJson]
  rw [shape, shape] at same
  have read := congrArg readString (List.cons.inj same).2
  rw [readString_jsonEscapeAll, readString_jsonEscapeAll] at read
  exact Prod.mk.inj (Option.some.inj read)

end JsonText

end OpenShapeForge.Js
